import SchemaAudit.Dbml.Table

/-!
# Relationships and documents in DBML

A relationship is one-to-one when the columns of the child key are a candidate key of the parent
table, and one-to-many otherwise. It is written as one `Ref` line for each pair of columns.

A document holds the blocks of all tables, in order and with an empty line between neighbours, and
behind another empty line the `Ref` lines of all tables.
-/

namespace SchemaAudit

/-- How many child rows a parent row can have. -/
inductive Cardinality where
  | oneToOne
  | oneToMany
  deriving DecidableEq, Repr

/-- The sign of a cardinality between the two columns of a line. -/
def Cardinality.sign : Cardinality → String
  | oneToOne => "-"
  | oneToMany => ">"

/-- The cardinality of a relationship to a parent table. Without the table nothing is known to be
unique. -/
def Relationship.cardinality (r : Relationship) (parent : Option Table) : Cardinality :=
  match parent with
  | some t => if t.isUniqueSet r.childKey.columnNames then .oneToOne else .oneToMany
  | none => .oneToMany

namespace Dbml

/-- The last of the tables with the given name. -/
def lastNamed? (tables : List Table) (name : Identifier) : Option Table :=
  tables.reverse.find? (·.name == name)

/-- The line for one pair of columns. -/
def pairLine (child parent : Identifier) (sign : String) (pair : Column × Column) : String :=
  s!"Ref: {child.visibleName}.{unquote pair.1.name} {sign} " ++
    s!"{parent.visibleName}.{unquote pair.2.name}"

/-- The lines for one relationship of the table `child`. -/
def relationshipLines (known : List Table) (child : Identifier) (r : Relationship) : List String :=
  let sign := (r.cardinality (lastNamed? known r.parentTable)).sign
  (r.childKey.columns.zip r.parentKey.columns).map (pairLine child r.parentTable sign)

/-- The lines for all relationships that a table declares. Referenced tables are looked up among
the known ones. -/
def referenceLines (known : List Table) (t : Table) : List String :=
  t.parentKeys.flatMap (relationshipLines known t.name)

/-! ### Documents -/

/-- The `Ref` lines of all tables behind an empty line, where a table declares a relationship. -/
def referenceSection (tables : List Table) : List String :=
  if tables.any (!·.parentKeys.isEmpty) then "" :: tables.flatMap (referenceLines tables) else []

/-- The text of the tables. It has no blanks at its end. -/
def document (tables : List Table) : Except Failure String := do
  let blocks ← tables.mapM tableLines
  let lines := List.intercalate [""] blocks ++ referenceSection tables
  .ok (String.ofList (Text.stripEnd (String.intercalate "\n" lines).toList))

end Dbml

end SchemaAudit
