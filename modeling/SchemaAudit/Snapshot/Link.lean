import SchemaAudit.Snapshot.Table

/-!
# Linking foreign keys

Every foreign key becomes a relationship that both of its tables know: the child table among its
`parentKeys`, in the order of declaration, and the parent table among its `childKeys`, in the order
of the child tables.
-/

namespace SchemaAudit.Snapshot

/-- The relationship that a foreign key of a child table makes with one of the tables. -/
def resolveForeignKey (tables : List Table) (child : Table) (f : ForeignKey) :
    Except Failure Relationship :=
  match tables.find? (·.name == f.parentTable) with
  | some parent => f.resolve child parent
  | none => .error (.snapshot (.unknownParent child.name f.parentTable))

/-- The relationships found so far, by the names of their child tables and by those of their parent
tables. -/
structure Links where
  parentKeys : Identifier → List Relationship := fun _ => []
  childKeys : Identifier → List Relationship := fun _ => []

namespace Links

/-- A relationship put behind those that are found under a name. -/
def collect (name : Identifier) (r : Relationship) (found : Identifier → List Relationship) :
    Identifier → List Relationship :=
  fun n => if n = name then found n ++ [r] else found n

/-- One relationship more, which both of its tables know. -/
def add (links : Links) (r : Relationship) : Links where
  parentKeys := collect r.childTable r links.parentKeys
  childKeys := collect r.parentTable r links.childKeys

/-- A table with the relationships that are found under its name. -/
def attach (links : Links) (t : Table) : Table :=
  { t with parentKeys := links.parentKeys t.name, childKeys := links.childKeys t.name }

end Links

/-- Adds the relationship that a foreign key of a child table makes. -/
def linkForeignKey (tables : List Table) (child : Table) (links : Links) (f : ForeignKey) :
    Except Failure Links := do
  let r ← resolveForeignKey tables child f
  .ok (links.add r)

/-- Adds the relationships that a table declares, in the order of declaration. -/
def linkDraft (tables : List Table) (links : Links) (d : Draft) : Except Failure Links :=
  d.foreignKeys.foldlM (linkForeignKey tables d.table) links

/-- The tables with their relationships. All of these are found first, table by table. -/
def linkTables (drafts : List Draft) : Except Failure (List Table) := do
  let tables := drafts.map (·.table)
  let links ← drafts.foldlM (linkDraft tables) {}
  .ok (tables.map links.attach)

end SchemaAudit.Snapshot
