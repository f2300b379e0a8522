import SchemaAudit.Schema.Model

/-!
# Columns of keys and indexes, compared

Keys and indexes are compared by the names of their columns.

* `leads`: a list that is not empty and stands at the start of another one;
* `sameSet`, `includedIn`, `nested`: lists compared as sets;
* `Table.isUniqueSet`: the columns of a primary key, unique key or unique index, in any order;
* `Index.covers`: the columns that an index can look up;
* `Index.isRedundantWith`: two indexes of which one makes the other unnecessary.
-/

namespace SchemaAudit

section Lists

variable {α : Type} [BEq α]

/-- Whether `front` is not empty and `whole` starts with it. -/
def leads (front whole : List α) : Bool :=
  !front.isEmpty && front.isPrefixOf whole

/-- Whether every element of one list is in the other. -/
def includedIn (small large : List α) : Bool :=
  small.all large.contains

/-- Whether two lists hold the same elements. -/
def sameSet (left right : List α) : Bool :=
  includedIn left right && includedIn right left

/-- Whether two lists hold the same elements, or one of them some of the elements of the other. -/
def nested (left right : List α) : Bool :=
  includedIn left right || includedIn right left

end Lists

/-! ### Names of columns -/

/-- The names of the columns of a key, in the declared order. -/
def Key.columnNames (k : Key) : List String :=
  k.columns.map (·.name)

/-- The name of the table's column behind an index column, or else the expression. -/
def IndexColumn.columnName (c : IndexColumn) : String :=
  match c.column with
  | some column => column.name
  | none => c.expression

namespace Index

/-- The names of the columns that order the index. -/
def columnNames (i : Index) : List String :=
  i.columns.map (·.columnName)

/-- The names and directions of the columns that order the index. -/
def orderedColumns (i : Index) : List (String × Direction) :=
  i.columns.map fun c => (c.columnName, c.direction)

/-- The names of the included columns. -/
def includedNames (i : Index) : List String :=
  i.included.map (·.name)

/-- Whether the index can look up rows by the given columns: they lead its columns, or its columns
lead them and the rest of them is included. -/
def covers (i : Index) (names : List String) : Bool :=
  leads names i.columnNames ||
    (leads i.columnNames names && includedIn (names.drop i.columnNames.length) i.includedNames)

/-- Whether one of two indexes makes the other unnecessary: the columns of one, with their
directions, lead those of the other, and of the included columns one set holds the other. -/
def isRedundantWith (i other : Index) : Bool :=
  (leads i.orderedColumns other.orderedColumns || leads other.orderedColumns i.orderedColumns) &&
    nested i.includedNames other.includedNames

end Index

/-! ### Unique sets of columns -/

namespace Table

/-- The sets of columns that are unique in the table: those of the primary key, of the unique keys
and of the unique indexes. -/
def candidates (t : Table) : List (List String) :=
  (t.primaryKey.toList ++ t.uniqueKeys).map Key.columnNames ++
    (t.indexes.filter (·.unique.isPresent)).map Index.columnNames

/-- Whether the given columns, in any order, are exactly those of a candidate. The empty set is
never unique. -/
def isUniqueSet (t : Table) (names : List String) : Bool :=
  !names.isEmpty && t.candidates.any (sameSet · names)

end Table

end SchemaAudit
