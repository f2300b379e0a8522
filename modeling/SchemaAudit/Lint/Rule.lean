import SchemaAudit.Lint.Catalog
import SchemaAudit.Lint.Check.Columns
import SchemaAudit.Lint.Check.Indexes
import SchemaAudit.Lint.Check.Keys
import SchemaAudit.Lint.Check.Names
import SchemaAudit.Lint.Check.Tables

/-!
# Rules

A rule is an inspection with its parameters, and the level of its messages. Most inspections look
at one object at a time (`Inspection.each`); two of them look at all tables together
(`Inspection.joint?`). What a rule says of a collection is `Rule.messages`.

A message can show the name of a key, an index, a check or a trigger, which the snapshot gives as it
likes, and an integer with too many digits has no text. A run of rules fails at such a message:
`report` gives the messages of a run that meets none, and `lint` those that there would be if every
value could be written.
-/

namespace SchemaAudit

/-! ### Messages -/

/-- What a rule says of an object. -/
structure Message where
  ruleId : String
  title : String
  level : Level
  text : String
  target : Option Identifier
  deriving DecidableEq, Repr

/-- The line that shows a message: level, rule, object and text. -/
def Message.display (m : Message) : String :=
  let target :=
    match m.target with
    | some name => " " ++ name.text
    | none => ""
  "[" ++ m.level.label ++ "] " ++ m.ruleId ++ target ++ ": " ++ m.text

/-- The number of messages at each level. -/
def summarize (messages : List Message) : List (Level × Nat) :=
  Level.all.map fun l => (l, messages.countP (·.level == l))

/-! ### Inspections -/

/-- What a rule looks at, with the parameters it needs. -/
inductive Inspection where
  | candidateKeyMissing
  | columnWithNullDefaultValue
  | disabledObjects
  | foreignKeyColumnTypeMismatch
  | foreignKeyIndex
  | foreignKeyIsPrimaryKey
  | foreignKeyMissing
  | foreignKeyRelationshipCycle
  | noIndexesPresentOnTable
  | noNonNullableColumnsPresent
  | noSurrogatePrimaryKey
  | onlyOneColumnPresent
  | orphanedTable
  | primaryKeyColumnNotFirstColumn
  | primaryKeyNotInteger
  | redundantIndexes
  | reservedKeywordName (keywords : List String)
  | tooManyColumns (limit : Int)
  | uniqueIndexWithNullableColumns
  | whitespaceName
  deriving DecidableEq, Repr

/-- What is found: the name of the object, and what is said of it. -/
abbrev Finding := Identifier × Wording

namespace Inspection

/-- The rule of the catalog to which an inspection belongs. -/
def kind : Inspection → RuleKind
  | candidateKeyMissing => .candidateKeyMissing
  | columnWithNullDefaultValue => .columnWithNullDefaultValue
  | disabledObjects => .disabledObjects
  | foreignKeyColumnTypeMismatch => .foreignKeyColumnTypeMismatch
  | foreignKeyIndex => .foreignKeyIndex
  | foreignKeyIsPrimaryKey => .foreignKeyIsPrimaryKey
  | foreignKeyMissing => .foreignKeyMissing
  | foreignKeyRelationshipCycle => .foreignKeyRelationshipCycle
  | noIndexesPresentOnTable => .noIndexesPresentOnTable
  | noNonNullableColumnsPresent => .noNonNullableColumnsPresent
  | noSurrogatePrimaryKey => .noSurrogatePrimaryKey
  | onlyOneColumnPresent => .onlyOneColumnPresent
  | orphanedTable => .orphanedTable
  | primaryKeyColumnNotFirstColumn => .primaryKeyColumnNotFirstColumn
  | primaryKeyNotInteger => .primaryKeyNotInteger
  | redundantIndexes => .redundantIndexes
  | reservedKeywordName _ => .reservedKeywordName
  | tooManyColumns _ => .tooManyColumns
  | uniqueIndexWithNullableColumns => .uniqueIndexWithNullableColumns
  | whitespaceName => .whitespaceName

/-- The problem with names that an inspection looks for, if it looks at names. -/
def nameProblem? : Inspection → Option Lint.NameProblem
  | reservedKeywordName keywords => some (.keyword keywords)
  | whitespaceName => some .outerBlanks
  | _ => none

/-- Whether an inspection looks at objects of the kind: all look at tables, and those of names at
all kinds. -/
def supports (i : Inspection) (k : ObjectKind) : Bool :=
  k == .table || i.nameProblem?.isSome

/-- Texts that show no values. -/
def plain (texts : List String) : List Wording :=
  texts.map fun text => [.words text]

/-- What an inspection says of a table by itself. -/
def ofTable (i : Inspection) (t : Table) : List Wording :=
  match i with
  | candidateKeyMissing => plain (Lint.noCandidateKey t)
  | columnWithNullDefaultValue => plain (Lint.nullDefaults t)
  | disabledObjects => Lint.disabledObjects t
  | foreignKeyColumnTypeMismatch => Lint.typeMismatches t
  | foreignKeyIndex => Lint.unindexedForeignKeys t
  | foreignKeyIsPrimaryKey => Lint.selfReferences t
  | foreignKeyMissing => []
  | foreignKeyRelationshipCycle => []
  | noIndexesPresentOnTable => plain (Lint.noIndexes t)
  | noNonNullableColumnsPresent => plain (Lint.noRequiredColumns t)
  | noSurrogatePrimaryKey => plain (Lint.compositePrimaryKey t)
  | onlyOneColumnPresent => plain (Lint.onlyColumn t)
  | orphanedTable => plain (Lint.orphaned t)
  | primaryKeyColumnNotFirstColumn => plain (Lint.primaryKeyNotFirst t)
  | primaryKeyNotInteger => plain (Lint.primaryKeyNotInteger t)
  | redundantIndexes => Lint.redundantIndexes t
  | reservedKeywordName keywords =>
    plain ((Lint.NameProblem.keyword keywords).ofColumns .table t.name t.columns)
  | tooManyColumns limit => plain (Lint.tooManyColumns limit t)
  | uniqueIndexWithNullableColumns => Lint.nullableUniqueIndexes t
  | whitespaceName => plain (Lint.NameProblem.outerBlanks.ofColumns .table t.name t.columns)

/-- What an inspection of names says of an object without columns. -/
def ofName (i : Inspection) (k : ObjectKind) (name : Identifier) : List Wording :=
  match i.nameProblem? with
  | some p => plain (p.ofName k name)
  | none => []

/-- What an inspection of names says of a view. -/
def ofView (i : Inspection) (v : View) : List Wording :=
  match i.nameProblem? with
  | some p => plain (p.ofColumns .view v.name v.columns)
  | none => []

/-- What an inspection finds in each object of a collection by itself. -/
def each (i : Inspection) : Collection → List (List Finding)
  | .tables ts => ts.map fun t => (i.ofTable t).map fun text => (t.name, text)
  | .views vs => vs.map fun v => (i.ofView v).map fun text => (v.name, text)
  | .sequences ss => ss.map fun s => (i.ofName .sequence s.name).map fun text => (s.name, text)
  | .synonyms ss => ss.map fun s => (i.ofName .synonym s.name).map fun text => (s.name, text)
  | .routines rs => rs.map fun r => (i.ofName .routine r.name).map fun text => (r.name, text)

/-- What an inspection that looks at all tables together finds in them. -/
def joint? (i : Inspection) (c : Collection) : Option (List Finding) :=
  match i, c with
  | foreignKeyMissing, .tables ts =>
    let names := ts.map (·.name)
    some (ts.flatMap fun t =>
      (plain (Lint.missingForeignKeys names t)).map fun text => (t.name, text))
  | foreignKeyRelationshipCycle, .tables ts =>
    some ((Lint.relationshipCycles ts).map fun f => (f.1, [.words f.2]))
  | _, _ => none

/-- What an inspection finds in a collection. -/
def findings (i : Inspection) (c : Collection) : List Finding :=
  match i.joint? c with
  | some fs => fs
  | none => (i.each c).flatten

end Inspection

/-! ### Rules -/

/-- An inspection, and the level of its messages. -/
structure Rule where
  inspection : Inspection
  level : Level
  deriving DecidableEq, Repr

namespace Rule

/-- The rule of the catalog. -/
def kind (r : Rule) : RuleKind :=
  r.inspection.kind

/-- The kinds of objects that a rule looks at. -/
def kinds (r : Rule) : List ObjectKind :=
  ObjectKind.all.filter r.inspection.supports

/-- The message in which a rule says a text of the object with the given name. -/
def say (r : Rule) (name : Identifier) (text : String) : Message :=
  ⟨r.kind.id, r.kind.title, r.level, text, some name⟩

/-- A finding as a message of the rule. -/
def message (r : Rule) (f : Finding) : Message :=
  r.say f.1 f.2.text

@[simp] theorem message_words (r : Rule) (name : Identifier) (text : String) :
    r.message (name, [.words text]) = r.say name text :=
  congrArg (r.say name) String.append_empty

/-- The messages of texts that show no values. -/
theorem map_message_plain (r : Rule) (name : Identifier) (texts : List String) :
    ((Inspection.plain texts).map fun text => (name, text)).map r.message =
      texts.map (r.say name) := by
  rw [Inspection.plain, List.map_map, List.map_map]
  exact List.map_congr_left fun text _ => r.message_words name text

/-- The messages of a rule about the objects of a collection. -/
def messages (r : Rule) (c : Collection) : List Message :=
  (r.inspection.findings c).map r.message

/-- The short description of a rule. -/
def describe (r : Rule) : String :=
  s!"{r.kind.typeName}(level={r.level.label})"

end Rule

/-- The messages of several rules about the objects of a collection, rule by rule. Only rules that
look at objects of the kind are asked. -/
def lintCollection (rules : List Rule) (c : Collection) : List Message :=
  (rules.filter (·.inspection.supports c.kind)).flatMap (·.messages c)

/-- The messages of several rules about a database, kind by kind. Whether a run gives them, or fails
at one that cannot be written, is for `report` to say. -/
def lint (rules : List Rule) (d : Database) : List Message :=
  d.collections.flatMap (lintCollection rules)

/-! ### Runs -/

namespace Rule

/-- A finding as a message of the rule, if what it shows can be written. -/
def tell (r : Rule) (f : Finding) : Except Failure Message := do
  let text ← f.2.write
  .ok (r.say f.1 text)

/-- The messages of a rule about the objects of a collection, if all of them can be written. -/
def report (r : Rule) (c : Collection) : Except Failure (List Message) :=
  (r.inspection.findings c).mapM r.tell

end Rule

/-- The messages of a run of several rules over the objects of a collection. -/
def reportCollection (rules : List Rule) (c : Collection) : Except Failure (List Message) := do
  let found ← (rules.filter (·.inspection.supports c.kind)).mapM (·.report c)
  .ok found.flatten

/-- The messages of a run of several rules over a database. -/
def report (rules : List Rule) (d : Database) : Except Failure (List Message) := do
  let found ← d.collections.mapM (reportCollection rules)
  .ok found.flatten

end SchemaAudit
