import SchemaAudit.Lint.Selection
import SchemaAudit.Settings.File

/-!
# Settings, and where they come from

`Settings` is what a run of the command line needs to know: where the snapshot is, which rules are
wanted and at which levels, and which level makes the run fail.

A setting is given explicitly, or by a variable of the environment, or in the settings file, or it
has its default: the first of these that says anything decides. Rules are turned off by the file and
by the environment together.
-/

namespace SchemaAudit

/-- The settings of a run. The defaults hold where nothing else is said. -/
structure Settings where
  schemaPath : Path := .ofText "schema.yaml"
  level : Level := .warning
  failOn : Level := .error
  maxColumns : Int := defaultColumnLimit
  /-- The levels of single rules. -/
  levels : List (Doc × Level) := []
  /-- The rules that are off. -/
  disabled : List Doc := []
  deriving DecidableEq, Repr

/-- The rules that are wanted. -/
def Settings.selection (s : Settings) : Selection :=
  ⟨s.level, .int s.maxColumns, s.levels, s.disabled⟩

namespace Settings

/-- The variables of the environment, with their values. -/
abbrev Environment := List (String × String)

/-- What is given explicitly. A value `null` says nothing. -/
structure Explicit where
  configFile : Option Path := none
  schemaPath : Option Path := none
  level : Doc := .null
  failOn : Doc := .null
  maxColumns : Doc := .null
  deriving DecidableEq, Repr

/-- The settings file: the one given explicitly, or the one that the environment names. -/
def configFile? (env : Environment) (explicit : Explicit) : Option Path :=
  match explicit.configFile with
  | some p => some p
  | none =>
    match env.lookup "SCHEMALINT_CONFIG" with
    | some s => if s = "" then none else some (.ofText s)
    | none => none

/-- What the settings file says, if there is one. -/
def fileSettings [Yaml.Library] (t : FileTree) (env : Environment) (explicit : Explicit) :
    Except Failure FileSettings :=
  match configFile? env explicit with
  | some p => loadFile t p
  | none => .ok {}

/-- The path of the snapshot. -/
def resolvePath (env : Environment) (explicit : Explicit) (file : FileSettings) : Path :=
  match explicit.schemaPath, env.lookup "SCHEMALINT_SCHEMA_PATH" with
  | some p, _ => p
  | none, some s => .ofText s
  | none, none => file.schemaPath.getD ({} : Settings).schemaPath

/-- A setting that is read from a document or a text, if there is one of these. -/
def resolve {α : Type} (read : Doc → Except Failure α) (explicit : Doc) (text : Option String)
    (otherwise : α) : Except Failure α :=
  if explicit = .null then
    match text with
    | some s => read (.text s)
    | none => .ok otherwise
  else read explicit

/-- The names of the rules that the environment turns off, between commas. -/
def offVariable (env : Environment) : List Doc :=
  match env.lookup "SCHEMALINT_DISABLED_RULES" with
  | some s =>
    let names := (Text.splitString ',' s).map Text.stripString
    (names.filter (· != "")).map .text
  | none => []

/-- The keys of a list, each where it comes first. -/
def distinctKeys (keys : List Doc) : List Doc :=
  keys.foldl (fun acc k => if acc.any (Doc.sameKey k) then acc else acc ++ [k]) []

/-- The settings of a run. -/
def gather [Yaml.Library] (t : FileTree) (env : Environment) (explicit : Explicit) :
    Except Failure Settings := do
  let file ← fileSettings t env explicit
  let default : Settings := {}
  let level ← resolve (readLevel "level") explicit.level (env.lookup "SCHEMALINT_LEVEL")
    (file.level.getD default.level)
  let failOn ← resolve (readLevel "fail_on") explicit.failOn (env.lookup "SCHEMALINT_FAIL_ON")
    (file.failOn.getD default.failOn)
  let maxColumns ← resolve (readLimit "max_columns") explicit.maxColumns
    (env.lookup "SCHEMALINT_MAX_COLUMNS") (file.maxColumns.getD default.maxColumns)
  .ok {
    schemaPath := resolvePath env explicit file
    level
    failOn
    maxColumns
    levels := file.levels
    disabled := distinctKeys (file.disabled ++ offVariable env) }

end Settings

end SchemaAudit
