import SchemaAudit.Doc.Basic
import SchemaAudit.Schema.DataType
import SchemaAudit.Schema.Identifier

/-!
# Tables, views and the other objects of a database

A `Database` is what a snapshot describes, with the references resolved: keys and indexes hold the
columns they are made of, and a foreign key is found on both of its tables. Some fields hold a value
of the document as it was given (`Doc`): nothing but its presence and its text is ever asked of it.
-/

namespace SchemaAudit

/-! ### Columns -/

/-- The type of a column: its definition, and the class of the definition. -/
structure ColumnType where
  definition : String
  dataType : DataType
  deriving DecidableEq, Repr

/-- The numbers that a column counts up by itself. -/
structure AutoIncrement where
  initial : Int
  increment : Int
  deriving DecidableEq, Repr

/-- A column of a table or view. -/
structure Column where
  name : String
  type : ColumnType
  /-- Whether the column admits null. -/
  nullable : Doc := .bool true
  /-- The default expression. -/
  default : Option String := none
  autoIncrement : Option AutoIncrement := none
  /-- The defining expression of a computed column, `null` for a stored one. -/
  computed : Doc := .null
  deriving DecidableEq, Repr

/-- Whether the values of the column are computed. -/
def Column.isComputed (c : Column) : Bool :=
  c.computed != .null

/-! ### Keys and relationships -/

/-- The kinds of keys. -/
inductive KeyKind where
  | primary
  | unique
  | foreign
  deriving DecidableEq, Repr

/-- A key, with its columns in the declared order. -/
structure Key where
  name : Doc
  kind : KeyKind
  columns : List Column
  enabled : Doc := .bool true
  deriving DecidableEq, Repr

/-- What happens to the child rows when a parent row is updated or deleted. -/
inductive Action where
  | noAction
  | restrict
  | cascade
  | setNull
  | setDefault
  deriving DecidableEq, Repr

/-- A foreign key of the child table together with the key of the parent table that it references.
The columns of the two keys correspond by position. -/
structure Relationship where
  childTable : Identifier
  childKey : Key
  parentTable : Identifier
  parentKey : Key
  onUpdate : Action := .noAction
  onDelete : Action := .noAction
  deriving DecidableEq, Repr

/-! ### Indexes, checks and triggers -/

/-- The direction in which an index column is sorted. -/
inductive Direction where
  | ascending
  | descending
  deriving DecidableEq, Repr

/-- A column of an index: an expression, and the table's column when the expression is the name of
one. -/
structure IndexColumn where
  expression : String
  direction : Direction
  column : Option Column
  deriving DecidableEq, Repr

/-- An index. The included columns are stored with it but do not order it. -/
structure Index where
  name : Doc
  columns : List IndexColumn
  included : List Column := []
  unique : Doc := .bool false
  enabled : Doc := .bool true
  filter : Doc := .null
  deriving DecidableEq, Repr

/-- A check constraint. -/
structure Check where
  name : Doc
  definition : Doc
  enabled : Doc := .bool true
  deriving DecidableEq, Repr

/-- When a trigger fires, relative to the event. -/
inductive Timing where
  | before
  | after
  | insteadOf
  deriving DecidableEq, Repr

/-- The events on which a trigger fires. -/
structure Events where
  insert : Bool := false
  update : Bool := false
  delete : Bool := false
  deriving DecidableEq, Repr

/-- A trigger. -/
structure Trigger where
  name : Doc
  definition : Doc
  timing : Timing := .after
  events : Events := {}
  enabled : Doc := .bool true
  deriving DecidableEq, Repr

/-! ### Objects of a database -/

/-- A table. `parentKeys` are the foreign keys declared on it, `childKeys` the foreign keys of any
table that reference it. -/
structure Table where
  name : Identifier
  columns : List Column := []
  primaryKey : Option Key := none
  uniqueKeys : List Key := []
  parentKeys : List Relationship := []
  childKeys : List Relationship := []
  indexes : List Index := []
  checks : List Check := []
  triggers : List Trigger := []
  deriving DecidableEq, Repr

/-- The first column with the given name. -/
def Table.column? (t : Table) (name : String) : Option Column :=
  t.columns.find? (·.name == name)

/-- A view. -/
structure View where
  name : Identifier
  definition : Doc := .text ""
  columns : List Column := []
  materialized : Doc := .bool false
  deriving DecidableEq, Repr

/-- A sequence of numbers. -/
structure Sequence where
  name : Identifier
  start : Int := 1
  increment : Int := 1
  minValue : Option Int := none
  maxValue : Option Int := none
  cycle : Doc := .bool false
  cache : Int := 0
  deriving DecidableEq, Repr

/-- Another name for an object, which may lie outside the snapshot. -/
structure Synonym where
  name : Identifier
  target : Identifier
  deriving DecidableEq, Repr

/-- A stored procedure or function. -/
structure Routine where
  name : Identifier
  definition : Doc := .text ""
  deriving DecidableEq, Repr

/-- All objects of a snapshot, and the words that its dialect reserves. -/
structure Database where
  tables : List Table := []
  views : List View := []
  sequences : List Sequence := []
  synonyms : List Synonym := []
  routines : List Routine := []
  reservedKeywords : List String := []
  deriving DecidableEq, Repr

/-- The first table with the given name. -/
def Database.table? (d : Database) (name : Identifier) : Option Table :=
  d.tables.find? (·.name == name)

end SchemaAudit
