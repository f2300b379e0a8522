import SchemaAudit.Lint.Rule

/-!
# Making rules

`makeRule` makes one rule from values that were not checked before; `Selection.build` makes all
rules of the catalog that are not disabled, each at its level.
-/

namespace SchemaAudit

/-- The greatest number of columns of a table where no other limit is given. -/
def defaultColumnLimit : Int := 100

/-- The level of a rule. -/
def readRuleLevel (d : Doc) : Except Failure Level :=
  match Level.ofDoc d with
  | .ok l => .ok l
  | .error fault => .error (.rule (.level fault))

/-- The limit of a rule for the number of columns: a positive integer. -/
def readColumnLimit : Doc → Except Failure Int
  | .int n => if 0 < n then .ok n else .error (.rule (.limitNotPositive n))
  | d => .error (.rule (.limitNotInteger d))

/-- The keywords of a rule: the parts of a list of texts, or the characters of a text. -/
def readRuleKeywords (d : Doc) : Except Failure (List String) :=
  if d = .null then .error (.input (.missing "reserved_keywords"))
  else
    match d.items? with
    | none => .error .wrongShape
    | some parts => do
      let texts ← parts.mapM fun
        | .text s => .ok s
        | _ => .error .wrongShape
      .ok (Text.distinct texts)

/-- The inspection of a rule. The limit and the keywords are read only where they are needed. -/
def makeInspection (kind : RuleKind) (limit keywords : Doc) : Except Failure Inspection :=
  match kind with
  | .candidateKeyMissing => .ok .candidateKeyMissing
  | .columnWithNullDefaultValue => .ok .columnWithNullDefaultValue
  | .disabledObjects => .ok .disabledObjects
  | .foreignKeyColumnTypeMismatch => .ok .foreignKeyColumnTypeMismatch
  | .foreignKeyIndex => .ok .foreignKeyIndex
  | .foreignKeyIsPrimaryKey => .ok .foreignKeyIsPrimaryKey
  | .foreignKeyMissing => .ok .foreignKeyMissing
  | .foreignKeyRelationshipCycle => .ok .foreignKeyRelationshipCycle
  | .noIndexesPresentOnTable => .ok .noIndexesPresentOnTable
  | .noNonNullableColumnsPresent => .ok .noNonNullableColumnsPresent
  | .noSurrogatePrimaryKey => .ok .noSurrogatePrimaryKey
  | .onlyOneColumnPresent => .ok .onlyOneColumnPresent
  | .orphanedTable => .ok .orphanedTable
  | .primaryKeyColumnNotFirstColumn => .ok .primaryKeyColumnNotFirstColumn
  | .primaryKeyNotInteger => .ok .primaryKeyNotInteger
  | .redundantIndexes => .ok .redundantIndexes
  | .reservedKeywordName => (readRuleKeywords keywords).map .reservedKeywordName
  | .tooManyColumns => (readColumnLimit limit).map .tooManyColumns
  | .uniqueIndexWithNullableColumns => .ok .uniqueIndexWithNullableColumns
  | .whitespaceName => .ok .whitespaceName

/-- A rule from values that were not checked before. The level comes first. -/
def makeRule (kind : RuleKind) (level limit keywords : Doc) : Except Failure Rule := do
  let level ← readRuleLevel level
  let inspection ← makeInspection kind limit keywords
  .ok ⟨inspection, level⟩

/-- Which rules of the catalog are wanted, and at which levels. Rules are given by name or number.
-/
structure Selection where
  defaultLevel : Level := .warning
  columnLimit : Doc := .int defaultColumnLimit
  /-- The levels of single rules, a later one for the same rule replacing an earlier one. -/
  levels : List (Doc × Level) := []
  disabled : List Doc := []
  deriving DecidableEq, Repr

namespace Selection

/-- A level for a rule that the settings speak of. -/
def resolveLevel (entry : Doc × Level) : Except Failure (RuleKind × Level) := do
  let kind ← RuleKind.resolve entry.1
  .ok (kind, entry.2)

/-- The level of a rule: the last one given for it, or the default. -/
def levelOf (default : Level) (levels : List (RuleKind × Level)) (kind : RuleKind) : Level :=
  (levels.reverse.lookup kind).getD default

/-- The rules that are not disabled, in the order of their numbers. -/
def build (s : Selection) (keywords : List String) : Except Failure (List Rule) := do
  let levels ← s.levels.mapM resolveLevel
  let disabled ← s.disabled.mapM RuleKind.resolve
  (RuleKind.all.filter fun k => !disabled.contains k).mapM fun k => do
    let inspection ← makeInspection k s.columnLimit (.list (keywords.map .text))
    .ok ⟨inspection, levelOf s.defaultLevel levels k⟩

end Selection

end SchemaAudit
