import SchemaAudit.Schema.Model
import SchemaAudit.Snapshot.Fields

/-!
# Column definitions

* `readColumn`: a column of a table or view;
* `resolveColumns`: the columns that a list of names stands for.
-/

namespace SchemaAudit.Snapshot

/-- The fields of a column. -/
def columnFields : List String :=
  ["name", "type", "data_type", "nullable", "default", "autoincrement", "computed"]

/-- The class of a column's type: the one that is given, or else the one that its definition
shows. -/
def readDataType (column given definition : Doc) : Except Failure DataType :=
  if given.isPresent then
    match DataType.ofLabel? (Text.lowerString given.display) with
    | some t => .ok t
    | none => .error (.snapshot (.unknownDataType column given))
  else do
    let text ← definition.write
    .ok (DataType.classify text)

/-- The numbers that a column counts up: `true` stands for one by one, a mapping for its fields, and
any other value for a column that does not count. -/
def readAutoIncrement (column : Doc) : Doc → Except Failure (Option AutoIncrement)
  | .bool true => .ok (some ⟨1, 1⟩)
  | .map es => do
    let name ← column.write
    let owner := s!"Column '{name}'"
    let initial ← readInteger owner "initial" (fieldOr (.map es) "initial" (.int 1))
    let increment ← readInteger owner "increment" (fieldOr (.map es) "increment" (.int 1))
    .ok (some ⟨initial, increment⟩)
  | _ => .ok none

/-- A column of a table or view. -/
def readColumn (d : Doc) : Except Failure Column := do
  checkFields .column columnFields d
  let name := d.get "name"
  require name.isPresent (.missingField .column "name")
  let type := d.get "type"
  require type.isPresent (.missingType name)
  let dataType ← readDataType name (d.get "data_type") type
  let autoIncrement ← readAutoIncrement name (d.get "autoincrement")
  let nameText ← name.write
  let definition ← type.write
  let default ← (d.get "default").write
  .ok {
    name := nameText
    type := ⟨definition, dataType⟩
    nullable := fieldOr d "nullable" (.bool true)
    default := if d.get "default" = .null then none else some default
    autoIncrement := autoIncrement
    computed := d.get "computed" }

/-- The first column whose name an earlier one has. -/
def repeatedColumn? (seen : List String) : List Column → Option Column
  | [] => none
  | c :: cs => if seen.contains c.name then some c else repeatedColumn? (c.name :: seen) cs

/-- The column that a value names among the given ones. Only a value without parts can be looked
up. -/
def lookupColumn (columns : List Column) (kind : Definition) (table : Identifier) (name : Doc) :
    Except Failure Column :=
  if name.isAtom then
    match columns.find? (fun c => .text c.name == name) with
    | some c => .ok c
    | none => .error (.snapshot (.unknownColumn kind table name))
  else .error .wrongShape

/-- The columns that a list of names stands for. A text stands for the list of that name alone. -/
def resolveColumns (columns : List Column) (kind : Definition) (table : Identifier) (names : Doc) :
    Except Failure (List Column) := do
  let names := names.asNames
  require names.isPresent (.noColumns kind table)
  readList (lookupColumn columns kind table) names

end SchemaAudit.Snapshot
