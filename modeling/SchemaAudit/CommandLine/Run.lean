import SchemaAudit.CommandLine.Arguments
import SchemaAudit.Dbml.Document
import SchemaAudit.Settings.Resolve
import SchemaAudit.Snapshot.Load
import SchemaAudit.Yaml.Node

/-!
# Runs of the command line

A run looks at the arguments, the environment and the files, and ends with a status, an output, a
log and the files as they are afterwards. Faults of settings and snapshots end a run with a status
of their own; any other failure is a failure of the run. The texts in files are read by a library of
YAML; where none is given, it is the reader of this project.

* `lint`: says what the rules find, and ends with status 1 if a message is serious enough;
* `dbml`: writes the tables in DBML;
* `run`: the command that the words of a command line name.
-/

namespace SchemaAudit.CommandLine

/-- How a run ends. -/
structure Outcome where
  status : Nat
  output : String := ""
  /-- The lines of the log. -/
  log : List String := []
  files : FileTree
  /-- Why the run did not do its work. -/
  refusal : Option Failure := none
  deriving DecidableEq, Repr

/-- The lines of a text, each with its end. -/
def unlines (lines : List String) : String :=
  String.join (lines.map (· ++ "\n"))

/-! ### Refusals -/

/-- The end of a run that a fault of the settings or of the snapshot ends. -/
def refuse (files : FileTree) (notes : List String) (f : Failure) : Except Failure Outcome :=
  let outcome (status : Nat) (line : String) : Outcome :=
    { status, log := notes ++ [line], files, refusal := some f }
  match f with
  | .settings fault => .ok (outcome 2 ("Configuration error: " ++ fault.message))
  | .snapshot fault => .ok (outcome 1 ("Schema load error: " ++ fault.message))
  | f => .error f

/-- The settings that the arguments give explicitly. -/
def Arguments.explicit (a : Arguments) : Settings.Explicit :=
  { configFile := a.config.map .ofText
    schemaPath := a.schemaPath.map .ofText
    level := (a.level.map Doc.text).getD .null
    failOn := (a.failOn.map Doc.text).getD .null }

/-! ### Linting -/

/-- The note that a rule looks at a collection. -/
def ruleNote (c : Collection) (r : Rule) : String :=
  s!"Running {r.kind.id} over {c.size} {c.kind.word}(s)"

/-- The notes on the rules that look at a database, kind by kind. -/
def lintNotes (path : Path) (rules : List Rule) (d : Database) : List String :=
  s!"Running {rules.length} rules against {path.text}" ::
    d.collections.flatMap fun c =>
      (rules.filter (·.inspection.supports c.kind)).map (ruleNote c)

/-- The line that counts messages. -/
def countLine (ms : List Message) : String :=
  let counts := (summarize ms).map fun (level, n) => s!"{n} {level.word}"
  s!"Found {ms.length} messages ({listNames counts})"

/-- The status of a run with messages: 1 if one of them reaches the level that makes it fail. -/
def lintStatus (failOn : Level) (ms : List Message) : Nat :=
  if ms.any (·.level.reaches failOn) then 1 else 0

/-- Says what the rules find in the snapshot. -/
def lint [Yaml.Library] (a : Arguments) (env : Settings.Environment) (files : FileTree) :
    Except Failure Outcome :=
  let told (notes : List String) : List String := if a.verbose then notes else []
  match Settings.gather files env a.explicit with
  | .error f => refuse files [] f
  | .ok settings =>
    let notes := Snapshot.notes files settings.schemaPath
    match Snapshot.load files settings.schemaPath with
    | .error f => refuse files (told notes) f
    | .ok d =>
      match settings.selection.build d.reservedKeywords with
      | .error f => refuse files (told notes) f
      | .ok rules => do
        let ms ← report rules d
        .ok {
          status := lintStatus settings.failOn ms
          output := unlines (ms.map Message.display ++ [countLine ms])
          log := told (notes ++ lintNotes settings.schemaPath rules d)
          files }

/-! ### Writing DBML -/

/-- The text of a file with a document. An empty document has no line. -/
def fileText (document : String) : String :=
  if document = "" then "" else document ++ "\n"

/-- Writes the tables of the snapshot in DBML, to the output or to a file. -/
def dbml [Yaml.Library] (a : Arguments) (env : Settings.Environment) (files : FileTree) :
    Except Failure Outcome :=
  let told (notes : List String) : List String := if a.verbose then notes else []
  match Settings.gather files env a.explicit with
  | .error f => refuse files [] f
  | .ok settings =>
    let notes := told (Snapshot.notes files settings.schemaPath)
    match Snapshot.load files settings.schemaPath with
    | .error f => refuse files notes f
    | .ok d => do
      let document ← Dbml.document d.tables
      match a.output with
      | none => .ok { status := 0, output := document ++ "\n", log := notes, files }
      | some name =>
        let path := Path.ofText name
        let files ← files.save path (fileText document)
        let line := s!"Wrote {d.tables.length} tables to {path.text}"
        .ok { status := 0, log := notes ++ [line], files }

/-! ### Commands -/

/-- Runs a command. -/
def runCommand [Yaml.Library] (a : Arguments) (env : Settings.Environment) (files : FileTree) :
    Except Failure Outcome :=
  match a.command with
  | .lint => lint a env files
  | .dbml => dbml a env files

/-- The status of a run whose words are no command. -/
def usageStatus : Nat := 2

/-- Runs the command that the words of a command line name, if they name one. -/
def run? [Yaml.Library] (words : List String) (env : Settings.Environment) (files : FileTree) :
    Option (Except Failure Outcome) :=
  (Arguments.ofWords? words).map fun a => runCommand a env files

end SchemaAudit.CommandLine
