import SchemaAudit.Doc.Display
import SchemaAudit.Lint.Level
import SchemaAudit.Schema.Identifier

/-!
# Failures

What can go wrong is a cause, not a text: `SnapshotFault` for a snapshot, `SettingsFault` for the
settings, `RuleFault` for the making of a rule, and `Failure` for all of these together with the
values that no part of the library knows what to do with. The texts are in the functions
`message`.
-/

namespace SchemaAudit

/-! ### Snapshots -/

/-- The kinds of definitions in a snapshot. -/
inductive Definition where
  | table
  | column
  | primaryKey
  | uniqueKey
  | foreignKey
  | index
  | view
  | sequence
  | synonym
  | routine
  deriving DecidableEq, Repr

namespace Definition

/-- The name of a kind of definition inside a sentence. -/
def label : Definition → String
  | table => "table"
  | column => "column"
  | primaryKey => "primary key"
  | uniqueKey => "unique key"
  | foreignKey => "foreign key"
  | index => "index"
  | view => "view"
  | sequence => "sequence"
  | synonym => "synonym"
  | routine => "routine"

/-- The name of a kind of definition at the start of a sentence. -/
def title : Definition → String
  | table => "Table"
  | column => "Column"
  | primaryKey => "Primary key"
  | uniqueKey => "Unique key"
  | foreignKey => "Foreign key"
  | index => "Index"
  | view => "View"
  | sequence => "Sequence"
  | synonym => "Synonym"
  | routine => "Routine"

end Definition

/-- Why a snapshot is refused. -/
inductive SnapshotFault where
  | pathMissing (path : String)
  | invalidYaml (path : String)
  | emptyFile (path : String)
  | fileNotMapping (path : String)
  | unknownSections (names : List String)
  | notMapping (kind : Definition) (value : Doc)
  | unknownFields (kind : Definition) (names : List String)
  | missingField (kind : Definition) (field : String)
  | invalidName (localName : String) (fault : NameFault)
  | notInteger (owner : String) (field : String) (value : Doc)
  | duplicateTable (name : Identifier)
  | duplicateColumn (column : String) (table : Identifier)
  | missingType (column : Doc)
  | unknownDataType (column value : Doc)
  | noColumns (kind : Definition) (table : Identifier)
  | unknownColumn (kind : Definition) (table : Identifier) (column : Doc)
  | unknownAction (table : Identifier) (value : Doc)
  | missingReference (table : Identifier)
  | missingExpression (value : Doc)
  | unknownDirection (order : String)
  | missingCheck (value : Doc)
  | missingTrigger (value : Doc)
  | unknownTiming (trigger : Doc)
  | unknownEvent (trigger event : Doc)
  | missingTarget (synonym : Doc)
  | invalidTarget (synonym : Identifier) (target : Doc) (fault : NameFault)
  | keywordsNotTexts
  | unknownParent (child parent : Identifier)
  | noPrimaryKey (parent : Identifier)
  | noSuchKey (parent : Identifier) (columns : List String)
  | columnCount (parent : Identifier) (given referenced : Nat)
  deriving DecidableEq, Repr

/-- Names in a list, in the order of their code points. -/
def listNames (names : List String) : String :=
  String.intercalate ", " names

/-- What is wrong with a refused snapshot. -/
def SnapshotFault.message : SnapshotFault → String
  | pathMissing path => s!"Schema path does not exist: {path}"
  | invalidYaml path => s!"Invalid YAML in {path}"
  | emptyFile path => s!"Empty YAML file: {path}"
  | fileNotMapping path => s!"Schema snapshot {path} must contain a mapping"
  | unknownSections names => s!"Unknown field(s) in schema snapshot: {listNames names}"
  | notMapping kind value =>
    s!"{kind.title} definition must be a mapping, got {value.literal}"
  | unknownFields kind names =>
    s!"Unknown field(s) in {kind.label} definition: {listNames names}"
  | missingField kind field => s!"{kind.title} definition missing '{field}' field"
  | invalidName localName fault => s!"Invalid name '{localName}': {fault.message}"
  | notInteger owner field value =>
    s!"{owner} has a non-integer '{field}': {value.literal}"
  | duplicateTable name => s!"Duplicate table name '{name.text}'"
  | duplicateColumn column table =>
    s!"Duplicate column name '{column}' in table '{table.text}'"
  | missingType column => s!"Column '{column.display}' missing 'type' field"
  | unknownDataType column value =>
    s!"Column '{column.display}' has unknown data_type '{value.display}'"
  | noColumns kind table => s!"{kind.title} on table '{table.text}' has no columns"
  | unknownColumn kind table column =>
    s!"{kind.title} on table '{table.text}' references unknown column '{column.display}'"
  | unknownAction table value =>
    s!"Foreign key on table '{table.text}' has unknown referential action '{value.display}'"
  | missingReference table =>
    s!"Foreign key on table '{table.text}' missing 'references.table'"
  | missingExpression value =>
    s!"Index column definition missing expression: {value.literal}"
  | unknownDirection order => s!"Unknown index column order '{order}'"
  | missingCheck value => s!"Check constraint missing 'definition': {value.literal}"
  | missingTrigger value => s!"Trigger definition missing 'name': {value.literal}"
  | unknownTiming trigger => s!"Trigger '{trigger.display}' has unknown timing"
  | unknownEvent trigger event =>
    s!"Trigger '{trigger.display}' has unknown event '{event.display}'"
  | missingTarget synonym => s!"Synonym '{synonym.display}' missing 'target' field"
  | invalidTarget synonym target fault =>
    s!"Synonym '{synonym.text}' has an invalid target '{target.display}': {fault.message}"
  | keywordsNotTexts => "'reserved_keywords' must be a list of strings"
  | unknownParent child parent =>
    s!"Foreign key on table '{child.text}' references unknown table '{parent.text}'"
  | noPrimaryKey parent =>
    s!"Foreign key to '{parent.text}' has no columns and the table has no primary key"
  | noSuchKey parent columns =>
    s!"Foreign key to '{parent.text}' references columns ({listNames columns}) " ++
      "which are not a primary or unique key"
  | columnCount parent given referenced =>
    s!"Foreign key to '{parent.text}' has {given} columns " ++
      s!"but the referenced key has {referenced}"

/-- The values that the message of a fault shows. -/
def SnapshotFault.values : SnapshotFault → List Doc
  | notMapping _ value => [value]
  | notInteger _ _ value => [value]
  | missingType column => [column]
  | unknownDataType column value => [column, value]
  | unknownColumn _ _ column => [column]
  | unknownAction _ value => [value]
  | missingExpression value => [value]
  | missingCheck value => [value]
  | missingTrigger value => [value]
  | unknownTiming trigger => [trigger]
  | unknownEvent trigger event => [trigger, event]
  | missingTarget synonym => [synonym]
  | invalidTarget _ target _ => [target]
  | _ => []

/-! ### Settings -/

/-- Why the settings are refused. -/
inductive SettingsFault where
  | fileMissing (path : String)
  | invalidYaml (path : String)
  | notMapping (path : String)
  | unknownFields (names : List String)
  | invalidLevel (value : Doc) (source : String)
  | invalidLimit (value : Doc) (source : String)
  | limitNotPositive (limit : Int) (source : String)
  | rulesNotMapping
  | unknownRule (name : String) (known : List String)
  deriving DecidableEq, Repr

/-- What is wrong with refused settings. -/
def SettingsFault.message : SettingsFault → String
  | fileMissing path => s!"Config file not found: {path}"
  | invalidYaml path => s!"Invalid YAML in config file {path}"
  | notMapping path => s!"Config file {path} must contain a mapping"
  | unknownFields names => s!"Unknown field(s) in config file: {listNames names}"
  | invalidLevel value source =>
    s!"Invalid level {value.literal} for {source}. Expected one of: " ++
      listNames (Level.all.map Level.word)
  | invalidLimit value source => s!"Invalid column limit {value.literal} for {source}"
  | limitNotPositive limit source =>
    s!"Column limit for {source} must be positive, got {limit}"
  | rulesNotMapping => "'rules' must be a mapping of rule name to level"
  | unknownRule name known => s!"Unknown rule '{name}'. Known rules: {listNames known}"

/-- The values that the message of a fault shows. -/
def SettingsFault.values : SettingsFault → List Doc
  | invalidLevel value _ => [value]
  | invalidLimit value _ => [value]
  | limitNotPositive limit _ => [.int limit]
  | _ => []

/-! ### Rules and arguments -/

/-- Why a rule cannot be made. -/
inductive RuleFault where
  | level (fault : LevelFault)
  | limitNotInteger (value : Doc)
  | limitNotPositive (limit : Int)
  deriving DecidableEq, Repr

/-- What is wrong with the parameters of a rule. -/
def RuleFault.message : RuleFault → String
  | level fault => fault.message
  | limitNotInteger value => s!"The column limit must be an integer, got {value.literal}"
  | limitNotPositive limit => s!"The column limit must be a positive number, got {limit}"

/-- Why an argument is refused. -/
inductive InputFault where
  /-- A required argument is absent. -/
  | missing (argument : String)
  /-- A value that names no kind of objects. -/
  | unknownKind (value : Doc)
  deriving DecidableEq, Repr

/-- The argument that is refused. -/
def InputFault.argument : InputFault → String
  | missing argument => argument
  | unknownKind _ => "kind"

/-- What is wrong with a refused argument. -/
def InputFault.message : InputFault → String
  | missing argument => s!"'{argument}' must not be None"
  | unknownKind value => s!"Unknown object kind: {value.literal}"

/-! ### All failures -/

/-- Why an operation gives no result. -/
inductive Failure where
  | snapshot (fault : SnapshotFault)
  | settings (fault : SettingsFault)
  | rule (fault : RuleFault)
  | input (fault : InputFault)
  /-- A qualified name of a request breaks a rule. -/
  | name (fault : NameFault)
  /-- A level of a request is none. -/
  | level (fault : LevelFault)
  /-- A value with no parts where parts are read, or one with parts where none may be. -/
  | wrongShape
  /-- An infinite number where an integer is read, or a number that is too large for its kind. -/
  | notFinite
  /-- A date or time that no calendar or clock shows, a number without digits, a character that does
  not exist, or bytes that are no text. -/
  | impossibleValue
  /-- An integer with too many digits where a text is wanted. -/
  | unwritable
  /-- Something other than a text as the name of a rule, other than a mapping as a snapshot, or a
  text that the library of YAML fails to read in a way of its own. -/
  | wrongKind
  /-- A directory where a file is read or written. -/
  | isDirectory
  /-- A file where a directory is made. -/
  | fileExists
  /-- A file on the way to another file. -/
  | notDirectory
  /-- A path that no file can have. -/
  | unusablePath
  deriving DecidableEq, Repr

/-- The text of a failure, where it has one. -/
def Failure.message? : Failure → Option String
  | snapshot fault => some fault.message
  | settings fault => some fault.message
  | rule fault => some fault.message
  | input fault => some fault.message
  | name fault => some fault.message
  | level fault => some fault.message
  | _ => none

/-- The values that the message of a fault of a snapshot or of settings shows. -/
def Failure.values : Failure → List Doc
  | snapshot fault => fault.values
  | settings fault => fault.values
  | _ => []

/-- The failure that is told: the given one, unless its message shows a value that cannot be
written. -/
def Failure.told (f : Failure) : Failure :=
  if f.values.all Doc.isWritable then f else .unwritable

end SchemaAudit
