import SchemaAudit.Lint.Object
import SchemaAudit.Text.Blank

/-!
# Checks of names

The same check goes over the names of all objects, and over the column names of tables and views:
`NameProblem` says which names are a problem, and what is said of them.
-/

namespace SchemaAudit.Lint

/-- What can be wrong with a name. -/
inductive NameProblem where
  /-- The name is one of the reserved keywords. -/
  | keyword (reserved : List String)
  /-- The name has blanks around it. -/
  | outerBlanks
  deriving DecidableEq, Repr

namespace NameProblem

/-- Whether a name has the problem. -/
def affects : NameProblem → String → Bool
  | keyword reserved, name => reserved.contains name
  | outerBlanks, name => name != Text.stripString name

/-- What is said of an object whose name has the problem. -/
def objectText (p : NameProblem) (kind : ObjectKind) (name : Identifier) : String :=
  match p with
  | keyword _ =>
    s!"The {kind.word} '{name.text}' is also a database keyword and may require quoting to be " ++
      "used. Consider renaming to a non-keyword name."
  | outerBlanks =>
    s!"The {kind.word} '{name.text}' contains whitespace and requires quoting to be used. " ++
      "Consider renaming to remove any whitespace."

/-- What is said of an object with a column whose name has the problem. -/
def columnText (p : NameProblem) (kind : ObjectKind) (name : Identifier) (column : String) :
    String :=
  match p with
  | keyword _ =>
    s!"The {kind.word} '{name.text}' contains a column '{column}' which is also a database " ++
      "keyword and may require quoting to be used. Consider renaming to a non-keyword name."
  | outerBlanks =>
    s!"The {kind.word} '{name.text}' contains a column '{column}' which contains whitespace " ++
      "and requires quoting to be used. Consider renaming to remove any whitespace."

/-- What is said of the name of an object. -/
def ofName (p : NameProblem) (kind : ObjectKind) (name : Identifier) : List String :=
  if p.affects name.localName then [p.objectText kind name] else []

/-- What is said of the names of an object and of its columns. -/
def ofColumns (p : NameProblem) (kind : ObjectKind) (name : Identifier) (columns : List Column) :
    List String :=
  p.ofName kind name ++
    (columns.filter (p.affects ·.name)).map fun c => p.columnText kind name c.name

end NameProblem

end SchemaAudit.Lint
