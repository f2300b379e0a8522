import SchemaAudit.Schema.Describe

/-!
# Checks of indexes

Foreign keys without an index, redundant indexes, and unique indexes over columns that admit null.
-/

namespace SchemaAudit.Lint

/-- Whether a foreign key has columns and none of the table's indexes covers them. -/
def lacksIndex (t : Table) (r : Relationship) : Bool :=
  !r.childKey.columns.isEmpty && !t.indexes.any (·.covers r.childKey.columnNames)

/-- Foreign keys that no index covers. -/
def unindexedForeignKeys (t : Table) : List Wording :=
  (t.parentKeys.filter (lacksIndex t)).map fun r =>
    s!"The table {t.name.text} has a " ++ r.childKey.wording "foreign key" ++
      " which is missing an index. " ++
      "Consider adding an index that starts with the foreign key columns."

/-- A table with neither keys nor indexes. -/
def noIndexes (t : Table) : List String :=
  if t.primaryKey.isNone && t.uniqueKeys.isEmpty && t.indexes.isEmpty then
    [s!"The table {t.name.text} does not have any indexes present, " ++
      "requiring any filtering on the table to scan every row."]
  else []

/-- The pairs of elements of a list, the earlier one first. -/
def pairs {α : Type} : List α → List (α × α)
  | [] => []
  | a :: as => as.map (fun b => (a, b)) ++ pairs as

/-- Of two indexes, the one with fewer columns and then the other; the first one where they have
equally many. -/
def shorterFirst (p : Index × Index) : Index × Index :=
  if p.2.columns.length < p.1.columns.length then (p.2, p.1) else p

/-- The pairs of a table's indexes of which the first one is redundant because of the second. -/
def redundantPairs (t : Table) : List (Index × Index) :=
  ((pairs t.indexes).filter fun p => p.1.isRedundantWith p.2).map shorterFirst

/-- Indexes that are redundant because of another one. -/
def redundantIndexes (t : Table) : List Wording :=
  (redundantPairs t).map fun p =>
    s!"The table {t.name.text} has an " ++ p.1.wording ++ " which may be redundant, " ++
      "as its key columns are a prefix of the " ++ p.2.wording ++ "."

/-- The names of the columns of an index that admit null. -/
def nullableColumns (i : Index) : List String :=
  ((i.columns.filterMap (·.column)).filter (·.nullable.isPresent)).map (·.name)

/-- What is said of a unique index over columns that admit null. -/
def nullableUniqueIndex (t : Table) (i : Index) : Option Wording :=
  if i.unique.isPresent && !(nullableColumns i).isEmpty then
    some (s!"The table {t.name.text} has a unique " ++ i.wording ++
      " which contains nullable columns " ++ describeColumns (nullableColumns i) ++
      ". Consider making the columns non-nullable.")
  else none

/-- Unique indexes over columns that admit null. -/
def nullableUniqueIndexes (t : Table) : List Wording :=
  t.indexes.filterMap (nullableUniqueIndex t)

end SchemaAudit.Lint
