import SchemaAudit.Graph.Cycle
import SchemaAudit.Schema.Describe
import SchemaAudit.Text.Basic
import SchemaAudit.Text.Case

/-!
# Checks of tables and their relations

Disabled parts of a table, tables without relations, relations that only a column name implies, and
cycles of relations. The last two look at all tables together.
-/

namespace SchemaAudit.Lint

/-! ### One table -/

/-- The disabled parts of a table, described. -/
def disabledParts (t : Table) : List Wording :=
  let key (kind : String) (k : Key) : List Wording :=
    if k.enabled.isPresent then [] else [k.wording kind]
  let index (i : Index) : List Wording := if i.enabled.isPresent then [] else [i.wording]
  let check (c : Check) : List Wording :=
    if c.enabled.isPresent then []
    else if c.name.isPresent then ["check constraint '" ++ Wording.value c.name ++ "'"]
    else ["check constraint"]
  let trigger (g : Trigger) : List Wording :=
    if g.enabled.isPresent then [] else ["trigger '" ++ Wording.value g.name ++ "'"]
  t.primaryKey.toList.flatMap (key "primary key") ++
    t.uniqueKeys.flatMap (key "unique key") ++
    t.parentKeys.flatMap (fun r => key "foreign key" r.childKey) ++
    t.indexes.flatMap index ++ t.checks.flatMap check ++ t.triggers.flatMap trigger

/-- Disabled keys, indexes, checks and triggers. -/
def disabledObjects (t : Table) : List Wording :=
  (disabledParts t).map fun part =>
    s!"The table {t.name.text} contains a disabled " ++ part ++
      ". Consider enabling or removing it."

/-- A table without relationships in either direction. -/
def orphaned (t : Table) : List String :=
  if t.parentKeys.isEmpty && t.childKeys.isEmpty then
    [s!"The table {t.name.text} is not related to any other table. " ++
      "Consider adding relations or removing the table."]
  else []

/-! ### Implied relationships -/

/-- The name of the table that a column name implies: what stands before `_id`, in any letter case,
or before `Id`. Other names imply nothing but themselves. -/
def impliedTableName (column : String) : String :=
  let cs := column.toList
  if 3 < cs.length && ['_', 'i', 'd'].isSuffixOf (Text.lower cs) then
    String.ofList (cs.take (cs.length - 3))
  else if 2 < cs.length && ['I', 'd'].isSuffixOf cs then
    String.ofList (cs.take (cs.length - 2))
  else column

/-- The first of the tables that a column of a table implies a relationship to. -/
def impliedTable? (names : List Identifier) (table : Identifier) (column : String) :
    Option Identifier :=
  let implied := Text.lowerString (impliedTableName column)
  if implied == Text.lowerString column || implied == Text.lowerString table.localName then none
  else names.find? fun n => Text.lowerString n.localName == implied

/-- The names of the columns of a table that belong to a foreign key. -/
def foreignKeyColumns (t : Table) : List String :=
  t.parentKeys.flatMap (·.childKey.columnNames)

/-- The columns of a table that imply a relationship without a foreign key, with the implied
table. -/
def impliedRelationships (names : List Identifier) (t : Table) : List (Column × Identifier) :=
  (t.columns.filter fun c => !(foreignKeyColumns t).contains c.name).filterMap fun c =>
    (impliedTable? names t.name c.name).map fun n => (c, n)

/-- Columns that imply a relationship to one of the named tables without a foreign key. -/
def missingForeignKeys (names : List Identifier) (t : Table) : List String :=
  (impliedRelationships names t).map fun p =>
    s!"The table {t.name.text} has a column {p.1.name} implying a relationship " ++
      s!"to {p.2.text} which is missing a foreign key constraint."

/-! ### Cycles -/

/-- The other tables that a table references, each once. -/
def referencedTables (t : Table) : List Identifier :=
  Text.distinct ((t.parentKeys.map (·.parentTable)).filter (· != t.name))

/-- The tables and the other tables they reference. -/
def referenceGraph (ts : List Table) : Graph Identifier :=
  Graph.ofEntries (ts.map fun t => (t.name, referencedTables t))

/-- What is said of the table at which a cycle starts. -/
def describeCycle (start : Identifier) (cycle : List Identifier) : String :=
  s!"The table {start.text} is part of a cycle of foreign key relationships: " ++
    String.intercalate " -> " (cycle.map (·.text)) ++
    ". Consider removing one of the relationships."

/-- The tables at which cycles of foreign keys start, and what is said of them. -/
def relationshipCycles (ts : List Table) : List (Identifier × String) :=
  (referenceGraph ts).cycles.filterMap fun cycle =>
    cycle.head?.map fun start => (start, describeCycle start cycle)

end SchemaAudit.Lint
