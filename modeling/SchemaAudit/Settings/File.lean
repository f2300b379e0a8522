import SchemaAudit.Doc.Reading
import SchemaAudit.Doc.Wording
import SchemaAudit.Files.Tree

/-!
# Settings files

A setting has a source, which its faults name. A settings file is a mapping that may say something
of each setting. `loadFile` gives what it says.
-/

namespace SchemaAudit.Settings

/-! ### Values of settings -/

/-- A level, as a name or as a rank. -/
def readLevel (source : String) (d : Doc) : Except Failure Level :=
  match Level.ofDoc d with
  | .ok l => .ok l
  | .error _ => .error (Failure.settings (.invalidLevel d source)).told

/-- A limit for the number of columns: a positive integer. -/
def readLimit (source : String) (d : Doc) : Except Failure Int := do
  let n ← d.readInteger (Failure.settings (.invalidLimit d source)).told
  if 0 < n then .ok n else .error (Failure.settings (.limitNotPositive n source)).told

/-! ### Files -/

/-- What a settings file says. -/
structure FileSettings where
  schemaPath : Option Path := none
  level : Option Level := none
  failOn : Option Level := none
  maxColumns : Option Int := none
  /-- The levels of single rules, by the names that the file gives them. -/
  levels : List (Doc × Level) := []
  /-- The names of the rules that are off. -/
  disabled : List Doc := []
  deriving DecidableEq, Repr

/-- The fields of a settings file. -/
def fields : List String :=
  ["schema_path", "level", "fail_on", "max_columns", "rules"]

/-- Whether a value in the place of a level turns a rule off: `false`, or the word. -/
def isOff : Doc → Bool
  | .bool b => !b
  | .text s => Text.lowerString (Text.stripString s) == "off"
  | _ => false

/-- The levels of the rules that are not off. -/
def readLevels (entries : List (Doc × Doc)) : Except Failure (List (Doc × Level)) :=
  (entries.filter fun e => !isOff e.2).mapM fun (name, value) => do
    let text ← name.write
    let level ← readLevel s!"rule '{text}'" value
    .ok (name, level)

/-- The names of the rules that are off. -/
def offNames (entries : List (Doc × Doc)) : List Doc :=
  (entries.filter fun e => isOff e.2).map (·.1)

/-- A path. -/
def readPath : Doc → Except Failure Path
  | .text s => .ok (.ofText s)
  | _ => .error .wrongShape

/-- The value of a field that may be absent. -/
def readField {α : Type} (d : Doc) (name : String) (read : Doc → Except Failure α) :
    Except Failure (Option α) :=
  match d.get? name with
  | some value => (read value).map some
  | none => .ok none

/-- What a mapping says of the settings. -/
def readMapping (d : Doc) : Except Failure FileSettings := do
  d.requireKnown fields fun names => .settings (.unknownFields names)
  let schemaPath ← readField d "schema_path" readPath
  let level ← readField d "level" (readLevel "level")
  let failOn ← readField d "fail_on" (readLevel "fail_on")
  let maxColumns ← readField d "max_columns" (readLimit "max_columns")
  let rules := d.get "rules"
  if rules.isPresent && !rules.isMap then .error (.settings .rulesNotMapping)
  let levels ← readLevels rules.entries
  .ok { schemaPath, level, failOn, maxColumns, levels, disabled := offNames rules.entries }

/-- What the document of a settings file says. A file that holds nothing says nothing. -/
def readDocument (p : Path) (d : Doc) : Except Failure FileSettings :=
  if d = .null then .ok {}
  else if d.isMap then readMapping d
  else .error (.settings (.notMapping p.text))

/-- What the settings file at the end of a path says. -/
def loadFile [Yaml.Library] (t : FileTree) (p : Path) : Except Failure FileSettings :=
  match t.find? p with
  | some (.file content) => do
    readDocument p (← content.read (.settings (.invalidYaml p.text)))
  | _ => .error (.settings (.fileMissing p.text))

end SchemaAudit.Settings
