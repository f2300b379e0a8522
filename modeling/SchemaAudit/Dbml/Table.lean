import SchemaAudit.Failure
import SchemaAudit.Schema.Describe
import SchemaAudit.Text.Blank

/-!
# Tables in DBML

A table is a block with one line for each column, and an inner block with one line for each index
that has columns. Quotes are removed from names and types, and escaped in default values.
-/

namespace SchemaAudit.Dbml

/-- The space before a line inside a block. -/
def indent : String := "    "

/-- Options in brackets. -/
def optionList (options : List String) : String :=
  "[" ++ String.intercalate ", " options ++ "]"

/-! ### Columns -/

/-- A default value between double quotes, with a backslash before each double quote in it. -/
def quoteDefault (value : String) : String :=
  let escape (c : Char) : List Char := if c = '\x22' then ['\\', '\x22'] else [c]
  "\x22" ++ String.ofList (value.toList.flatMap escape) ++ "\x22"

/-- Whether one of the keys consists of the column alone. -/
def isSoleColumn (keys : List Key) (c : Column) : Bool :=
  keys.any (·.columnNames == [c.name])

/-- The mark of a column that is a key by itself. The primary key comes first. -/
def keyMark (t : Table) (c : Column) : List String :=
  if isSoleColumn t.primaryKey.toList c then ["primary key"]
  else if isSoleColumn t.uniqueKeys c then ["unique key"]
  else []

/-- The options of a column. -/
def columnOptions (t : Table) (c : Column) : List String :=
  [if c.nullable.isPresent then "null" else "not null"] ++
    (if c.autoIncrement.isSome then ["increment"] else []) ++
    keyMark t c ++
    (c.default.map fun value => "default: " ++ quoteDefault value).toList

/-- The line of a column. -/
def columnLine (t : Table) (c : Column) : String :=
  s!"{indent}{unquote c.name} {unquote c.type.definition} " ++ optionList (columnOptions t c)

/-! ### Indexes -/

/-- The parts of a name put together, without those that are quotes. A name that is no text may
still be made of texts. -/
def unquoteName (name : Doc) : Except Failure String :=
  match name.items? with
  | none => .error .wrongShape
  | some parts => do
    let texts ← parts.mapM fun
      | .text s => .ok s
      | _ => .error .wrongShape
    let isQuote (s : String) : Bool := quoteChars.any fun c => s == String.ofList [c]
    .ok (String.join (texts.filter (!isQuote ·)))

/-- The option for the name of an index, where it has one. -/
def nameOption (i : Index) : Except Failure (List String) :=
  if i.name.isPresent then do
    let name ← unquoteName i.name
    .ok [s!"name: '{name}'"]
  else .ok []

/-- The option for the included columns of an index, where there are any. -/
def includeOption (i : Index) : List String :=
  match i.includedNames.map unquote with
  | [] => []
  | names => ["note: 'include: " ++ String.intercalate ", " names ++ "'"]

/-- The columns of an index: a single one alone, several in parentheses. -/
def indexColumnList : List String → String
  | [name] => name
  | names => describeColumns names

/-- The line of an index, if it has columns. -/
def indexLine (i : Index) : Except Failure (Option String) :=
  match i.columnNames.map unquote with
  | [] => .ok none
  | names => do
    let name ← nameOption i
    let options := name ++ (if i.unique.isPresent then ["unique"] else []) ++ includeOption i
    let suffix := if options.isEmpty then "" else " " ++ optionList options
    .ok (some (indent ++ indent ++ indexColumnList names ++ suffix))

/-- The inner block of the index lines, where there are any. -/
def indexBlock : List String → List String
  | [] => []
  | lines => ["", indent ++ "Indexes \x7b"] ++ lines ++ [indent ++ "\x7d"]

/-! ### Tables -/

/-- The lines of a table. -/
def tableLines (t : Table) : Except Failure (List String) := do
  let indexLines ← t.indexes.mapM indexLine
  .ok (["Table " ++ t.name.visibleName ++ " \x7b"] ++ t.columns.map (columnLine t) ++
    indexBlock (indexLines.filterMap id) ++ ["\x7d"])

end SchemaAudit.Dbml
