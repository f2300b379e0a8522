import SchemaAudit.Schema.Describe

/-!
# Checks of keys

Primary and unique keys, and the foreign keys of one table.
-/

namespace SchemaAudit.Lint

/-! ### Primary and unique keys -/

/-- A table without primary and unique keys. -/
def noCandidateKey (t : Table) : List String :=
  if t.primaryKey.isNone && t.uniqueKeys.isEmpty then
    [s!"The table {t.name.text} has no candidate (primary or unique) keys. " ++
      "Consider adding one to ensure records are unique."]
  else []

/-- A primary key of several columns. -/
def compositePrimaryKey (t : Table) : List String :=
  match t.primaryKey with
  | some k =>
    if 1 < k.columns.length then
      [s!"The table {t.name.text} has a multi-column primary key. " ++
        "Consider introducing a surrogate primary key."]
    else []
  | none => []

/-- A primary key whose single column is not the first of the table. -/
def primaryKeyNotFirst (t : Table) : List String :=
  match t.primaryKey.map (·.columns), t.columns with
  | some [k], c :: _ =>
    if c.name != k.name then
      [s!"The table {t.name.text} has a primary key whose column '{k.name}' " ++
        "is not the first column in the table."]
    else []
  | _, _ => []

/-- A primary key that is not a single column of integers. -/
def primaryKeyNotInteger (t : Table) : List String :=
  match t.primaryKey.map (·.columns) with
  | none => []
  | some [] => []
  | some [c] =>
    if c.type.dataType != .integer then
      [s!"The table {t.name.text} has a primary key column '{c.name}' " ++
        s!"of type {c.type.definition}, which is not an integer type."]
    else []
  | some _ =>
    [s!"The table {t.name.text} has a multi-column primary key. " ++
      "Consider introducing a single-column integer primary key."]

/-! ### Foreign keys -/

/-- The definition of a type in small letters, with single spaces between its words. -/
def normalizedType (c : Column) : String :=
  String.ofList (Text.joinWith [' '] (Text.words (Text.lower c.type.definition.toList)))

/-- Whether two columns are declared with different types. -/
def typesDiffer (child parent : Column) : Bool :=
  child.type.dataType != parent.type.dataType || normalizedType child != normalizedType parent

end SchemaAudit.Lint

namespace SchemaAudit

/-- The pairs of columns of a relationship whose declared types differ. -/
def Relationship.mismatches (r : Relationship) : List (Column × Column) :=
  (r.childKey.columns.zip r.parentKey.columns).filter fun p => Lint.typesDiffer p.1 p.2

end SchemaAudit

namespace SchemaAudit.Lint

/-- The types of a pair of columns. -/
def describePair (p : Column × Column) : String :=
  s!"'{p.1.name}' ({p.1.type.definition}) references '{p.2.name}' ({p.2.type.definition})"

/-- What is said of a foreign key whose types differ from those it references. -/
def typeMismatch (t : Table) (r : Relationship) : Option Wording :=
  match r.mismatches with
  | [] => none
  | pairs =>
    some (s!"The table {t.name.text} has a " ++ r.childKey.wording "foreign key" ++
      s!" to {r.parentTable.text} whose column types do not match: " ++
      String.intercalate ", " (pairs.map describePair) ++
      ". Consider using the same types on both sides of the relationship.")

/-- Foreign keys whose types differ from those they reference. -/
def typeMismatches (t : Table) : List Wording :=
  t.parentKeys.filterMap (typeMismatch t)

/-- Whether a foreign key references the very columns it is declared on. -/
def referencesItself (r : Relationship) : Bool :=
  r.parentTable == r.childTable && r.childKey.columnNames == r.parentKey.columnNames

/-- Foreign keys that reference the very columns they are declared on. -/
def selfReferences (t : Table) : List Wording :=
  (t.parentKeys.filter referencesItself).map fun r =>
    s!"The table {t.name.text} has a " ++ r.childKey.wording "foreign key" ++
      " that references the same columns it is declared on. " ++
      "Consider removing the foreign key."

end SchemaAudit.Lint
