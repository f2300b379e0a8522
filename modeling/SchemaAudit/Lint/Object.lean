import SchemaAudit.Schema.Model

/-!
# Kinds of objects

Rules look at the objects of a database kind by kind. A `Collection` holds objects of one kind.
-/

namespace SchemaAudit

/-- The kinds of objects that rules look at. -/
inductive ObjectKind where
  | table
  | view
  | sequence
  | synonym
  | routine
  deriving DecidableEq, Repr

namespace ObjectKind

/-- All kinds, in the order in which a database is looked at. -/
def all : List ObjectKind :=
  [table, view, sequence, synonym, routine]

/-- The word for an object of the kind. -/
def word : ObjectKind → String
  | table => "table"
  | view => "view"
  | sequence => "sequence"
  | synonym => "synonym"
  | routine => "routine"

/-- The word for several objects of the kind. -/
def plural : ObjectKind → String
  | table => "tables"
  | view => "views"
  | sequence => "sequences"
  | synonym => "synonyms"
  | routine => "routines"

/-- The kind that a value names. -/
def ofDoc? (d : Doc) : Option ObjectKind :=
  all.find? fun k => Doc.text k.word == d

end ObjectKind

/-- Objects of one kind. -/
inductive Collection where
  | tables (ts : List Table)
  | views (vs : List View)
  | sequences (ss : List Sequence)
  | synonyms (ss : List Synonym)
  | routines (rs : List Routine)
  deriving DecidableEq, Repr

namespace Collection

/-- The kind of the objects. -/
def kind : Collection → ObjectKind
  | tables _ => .table
  | views _ => .view
  | sequences _ => .sequence
  | synonyms _ => .synonym
  | routines _ => .routine

/-- The number of objects. -/
def size : Collection → Nat
  | tables ts => ts.length
  | views vs => vs.length
  | sequences ss => ss.length
  | synonyms ss => ss.length
  | routines rs => rs.length

/-- The names of the objects. -/
def names : Collection → List Identifier
  | tables ts => ts.map (·.name)
  | views vs => vs.map (·.name)
  | sequences ss => ss.map (·.name)
  | synonyms ss => ss.map (·.name)
  | routines rs => rs.map (·.name)

/-- The objects at the given positions. Positions beyond the end are passed over. -/
def pick (c : Collection) (positions : List Nat) : Collection :=
  match c with
  | tables ts => tables (positions.filterMap (ts[·]?))
  | views vs => views (positions.filterMap (vs[·]?))
  | sequences ss => sequences (positions.filterMap (ss[·]?))
  | synonyms ss => synonyms (positions.filterMap (ss[·]?))
  | routines rs => routines (positions.filterMap (rs[·]?))

end Collection

/-- The objects of one kind in a database. -/
def Database.collection (d : Database) : ObjectKind → Collection
  | .table => .tables d.tables
  | .view => .views d.views
  | .sequence => .sequences d.sequences
  | .synonym => .synonyms d.synonyms
  | .routine => .routines d.routines

/-- The objects of all kinds in a database, kind by kind. -/
def Database.collections (d : Database) : List Collection :=
  ObjectKind.all.map d.collection

end SchemaAudit
