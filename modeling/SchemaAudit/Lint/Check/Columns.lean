import SchemaAudit.Schema.Model
import SchemaAudit.Text.Case

/-!
# Checks of columns

What a table's columns are, and how many.
-/

namespace SchemaAudit.Lint

/-- Takes one pair of parentheses around a text away, and the blanks inside them. -/
def unwrap? (cs : List Char) : Option (List Char) :=
  match cs with
  | '(' :: rest =>
    if rest.getLast? = some ')' then some (Text.strip rest.dropLast) else none
  | _ => none

/-- Takes at most `limit` pairs of parentheses around a text away. -/
def unwrapAll : Nat → List Char → List Char
  | 0, cs => cs
  | limit + 1, cs =>
    match unwrap? cs with
    | some inner => unwrapAll limit inner
    | none => cs

/-- Whether a default value is null, in any number of parentheses. -/
def isNullDefault (value : String) : Bool :=
  let cs := value.toList
  Text.lower (unwrapAll cs.length (Text.strip cs)) == ['n', 'u', 'l', 'l']

/-- Columns whose default value is null. -/
def nullDefaults (t : Table) : List String :=
  (t.columns.filter fun c => c.default.any isNullDefault).map fun c =>
    s!"The table {t.name.text} has a column '{c.name}' whose default value " ++
      "is null. Consider removing the default value on the column."

/-- A table with more columns than the limit. -/
def tooManyColumns (limit : Int) (t : Table) : List String :=
  if limit < t.columns.length then
    [s!"The table {t.name.text} has too many columns. It has {t.columns.length} columns, " ++
      s!"more than the limit of {limit}. Consider splitting the table."]
  else []

/-- A table whose columns all admit null. -/
def noRequiredColumns (t : Table) : List String :=
  if !t.columns.isEmpty && t.columns.all (·.nullable.isPresent) then
    [s!"The table {t.name.text} has no not-null columns. " ++
      "Consider adding a not-null constraint to the columns that require a value."]
  else []

/-- A table with a single column. -/
def onlyColumn (t : Table) : List String :=
  match t.columns with
  | [c] =>
    [s!"The table {t.name.text} has only one column, '{c.name}'. " ++
      "Consider adding columns or folding it into a related table."]
  | _ => []

end SchemaAudit.Lint
