import SchemaAudit.Failure
import SchemaAudit.Text.Basic

/-!
# The catalog of rules

Every rule has a number that never changes, a name by which the settings speak of it, and a title.
-/

namespace SchemaAudit

/-- The rules of the catalog, in the order of their numbers. -/
inductive RuleKind where
  | candidateKeyMissing
  | columnWithNullDefaultValue
  | disabledObjects
  | foreignKeyColumnTypeMismatch
  | foreignKeyIndex
  | foreignKeyIsPrimaryKey
  | foreignKeyMissing
  | foreignKeyRelationshipCycle
  | noIndexesPresentOnTable
  | noNonNullableColumnsPresent
  | noSurrogatePrimaryKey
  | onlyOneColumnPresent
  | orphanedTable
  | primaryKeyColumnNotFirstColumn
  | primaryKeyNotInteger
  | redundantIndexes
  | reservedKeywordName
  | tooManyColumns
  | uniqueIndexWithNullableColumns
  | whitespaceName
  deriving DecidableEq, Repr

namespace RuleKind

/-- All rules, in the order of their numbers. -/
def all : List RuleKind :=
  [candidateKeyMissing, columnWithNullDefaultValue, disabledObjects, foreignKeyColumnTypeMismatch,
    foreignKeyIndex, foreignKeyIsPrimaryKey, foreignKeyMissing, foreignKeyRelationshipCycle,
    noIndexesPresentOnTable, noNonNullableColumnsPresent, noSurrogatePrimaryKey,
    onlyOneColumnPresent, orphanedTable, primaryKeyColumnNotFirstColumn, primaryKeyNotInteger,
    redundantIndexes, reservedKeywordName, tooManyColumns, uniqueIndexWithNullableColumns,
    whitespaceName]

/-- The name by which the settings speak of a rule. -/
def name : RuleKind → String
  | candidateKeyMissing => "candidate_key_missing"
  | columnWithNullDefaultValue => "column_with_null_default_value"
  | disabledObjects => "disabled_objects"
  | foreignKeyColumnTypeMismatch => "foreign_key_column_type_mismatch"
  | foreignKeyIndex => "foreign_key_index"
  | foreignKeyIsPrimaryKey => "foreign_key_is_primary_key"
  | foreignKeyMissing => "foreign_key_missing"
  | foreignKeyRelationshipCycle => "foreign_key_relationship_cycle"
  | noIndexesPresentOnTable => "no_indexes_present_on_table"
  | noNonNullableColumnsPresent => "no_non_nullable_columns_present"
  | noSurrogatePrimaryKey => "no_surrogate_primary_key"
  | onlyOneColumnPresent => "only_one_column_present"
  | orphanedTable => "orphaned_table"
  | primaryKeyColumnNotFirstColumn => "primary_key_column_not_first_column"
  | primaryKeyNotInteger => "primary_key_not_integer"
  | redundantIndexes => "redundant_indexes"
  | reservedKeywordName => "reserved_keyword_name"
  | tooManyColumns => "too_many_columns"
  | uniqueIndexWithNullableColumns => "unique_index_with_nullable_columns"
  | whitespaceName => "whitespace_name"

/-- The number of a rule as its messages show it. -/
def id : RuleKind → String
  | candidateKeyMissing => "SCHEMATIC0001"
  | columnWithNullDefaultValue => "SCHEMATIC0002"
  | disabledObjects => "SCHEMATIC0004"
  | foreignKeyColumnTypeMismatch => "SCHEMATIC0005"
  | foreignKeyIndex => "SCHEMATIC0006"
  | foreignKeyIsPrimaryKey => "SCHEMATIC0007"
  | foreignKeyMissing => "SCHEMATIC0008"
  | foreignKeyRelationshipCycle => "SCHEMATIC0009"
  | noIndexesPresentOnTable => "SCHEMATIC0011"
  | noNonNullableColumnsPresent => "SCHEMATIC0012"
  | noSurrogatePrimaryKey => "SCHEMATIC0013"
  | onlyOneColumnPresent => "SCHEMATIC0015"
  | orphanedTable => "SCHEMATIC0016"
  | primaryKeyColumnNotFirstColumn => "SCHEMATIC0017"
  | primaryKeyNotInteger => "SCHEMATIC0018"
  | redundantIndexes => "SCHEMATIC0019"
  | reservedKeywordName => "SCHEMATIC0020"
  | tooManyColumns => "SCHEMATIC0021"
  | uniqueIndexWithNullableColumns => "SCHEMATIC0022"
  | whitespaceName => "SCHEMATIC0023"

/-- What a rule looks for. -/
def title : RuleKind → String
  | candidateKeyMissing => "No candidate (primary or unique) key present."
  | columnWithNullDefaultValue => "Null default values assigned to column."
  | disabledObjects => "Disabled constraint, index or trigger present on a table."
  | foreignKeyColumnTypeMismatch =>
    "Foreign key column type does not match the referenced column type."
  | foreignKeyIndex => "Indexes missing on foreign key."
  | foreignKeyIsPrimaryKey => "Foreign key references its own columns."
  | foreignKeyMissing => "Column name implies a relationship missing a foreign key constraint."
  | foreignKeyRelationshipCycle => "Foreign key relationships form a cycle."
  | noIndexesPresentOnTable => "No indexes present on table."
  | noNonNullableColumnsPresent => "No not-null columns present on the table."
  | noSurrogatePrimaryKey => "Table contains a non-surrogate primary key."
  | onlyOneColumnPresent => "Only one column present on the table."
  | orphanedTable => "Table is not related to any other table."
  | primaryKeyColumnNotFirstColumn => "Primary key is not the first column in the table."
  | primaryKeyNotInteger => "Table contains a primary key that is not a single integer column."
  | redundantIndexes => "Redundant indexes on a table."
  | reservedKeywordName => "Object name is a reserved keyword."
  | tooManyColumns => "Too many columns present on the table."
  | uniqueIndexWithNullableColumns => "Unique index contains nullable columns."
  | whitespaceName => "Whitespace present in object name."

/-- The title-case name under which a rule is described. -/
def typeName : RuleKind → String
  | candidateKeyMissing => "CandidateKeyMissingRule"
  | columnWithNullDefaultValue => "ColumnWithNullDefaultValueRule"
  | disabledObjects => "DisabledObjectsRule"
  | foreignKeyColumnTypeMismatch => "ForeignKeyColumnTypeMismatchRule"
  | foreignKeyIndex => "ForeignKeyIndexRule"
  | foreignKeyIsPrimaryKey => "ForeignKeyIsPrimaryKeyRule"
  | foreignKeyMissing => "ForeignKeyMissingRule"
  | foreignKeyRelationshipCycle => "ForeignKeyRelationshipCycleRule"
  | noIndexesPresentOnTable => "NoIndexesPresentOnTableRule"
  | noNonNullableColumnsPresent => "NoNonNullableColumnsPresentRule"
  | noSurrogatePrimaryKey => "NoSurrogatePrimaryKeyRule"
  | onlyOneColumnPresent => "OnlyOneColumnPresentRule"
  | orphanedTable => "OrphanedTableRule"
  | primaryKeyColumnNotFirstColumn => "PrimaryKeyColumnNotFirstColumnRule"
  | primaryKeyNotInteger => "PrimaryKeyNotIntegerRule"
  | redundantIndexes => "RedundantIndexesRule"
  | reservedKeywordName => "ReservedKeywordNameRule"
  | tooManyColumns => "TooManyColumnsRule"
  | uniqueIndexWithNullableColumns => "UniqueIndexWithNullableColumnsRule"
  | whitespaceName => "WhitespaceNameRule"

/-- The rule with the given name. -/
def ofName? (name : String) : Option RuleKind :=
  all.find? (·.name == name)

/-- The rule with the given number, in capitals. -/
def ofId? (id : String) : Option RuleKind :=
  all.find? (·.id == id)

/-- The rule that the settings speak of: by its name, or by its number in any letter case. -/
def resolve : Doc → Except Failure RuleKind
  | .text s =>
    match ofName? s with
    | some k => .ok k
    | none =>
      match ofId? (Text.upperString s) with
      | some k => .ok k
      | none => .error (.settings (.unknownRule s (Text.sorted (all.map name))))
  | .list _ => .error .wrongShape
  | .map _ => .error .wrongShape
  | _ => .error .wrongKind

end RuleKind

end SchemaAudit
