import SchemaAudit.Doc.Wording
import SchemaAudit.Schema.ColumnSet

/-!
# Names and descriptions

How a message or an exported text speaks of a table, a key or an index. The name of a key or an
index is whatever value the snapshot gives it, so what is said of them is a `Wording`.
-/

namespace SchemaAudit

/-- The characters that quote a name in one dialect or another. -/
def quoteChars : List Char :=
  ['\x27', '\x22', '[', ']', '\x60']

/-- A name without the characters that quote names. -/
def unquote (name : String) : String :=
  String.ofList (name.toList.filter (!quoteChars.contains ·))

/-- The local name, after its schema if it has one, without quotes. -/
def Identifier.visibleName (i : Identifier) : String :=
  match i.qualifier.schema? with
  | some s => unquote (s ++ "." ++ i.localName)
  | none => unquote i.localName

/-- Names in parentheses. -/
def describeColumns (names : List String) : String :=
  "(" ++ String.intercalate ", " names ++ ")"

/-- A kind of thing, its name where it has one, and its columns. -/
def describeNamed (kind : String) (name : Doc) (columns : String) : Wording :=
  if name.isPresent then kind ++ " '" ++ Wording.value name ++ "' " ++ columns
  else kind ++ " " ++ columns

/-- A key with its columns, as a key of the given kind. -/
def Key.wording (k : Key) (kind : String) : Wording :=
  describeNamed kind k.name (describeColumns k.columnNames)

/-- The description of a key as a text. -/
def Key.describe (k : Key) (kind : String) : String :=
  (k.wording kind).text

/-- A column name, marked when it is sorted downwards. -/
def describeDirection (c : String × Direction) : String :=
  match c.2 with
  | .ascending => c.1
  | .descending => c.1 ++ " DESC"

/-- An index with its columns and directions. -/
def Index.wording (i : Index) : Wording :=
  describeNamed "index" i.name (describeColumns (i.orderedColumns.map describeDirection))

/-- The description of an index as a text. -/
def Index.describe (i : Index) : String :=
  i.wording.text

end SchemaAudit
