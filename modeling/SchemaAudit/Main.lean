import SchemaAudit.CommandLine.Run

/-!
# The program

Looks at the part of the file system that a run needs, runs the command that the words of the
command line name, and writes what the run says. All decisions are in the run itself.
-/

namespace SchemaAudit.Program

open CommandLine

/-- The variables of the environment that settings come from. -/
def variableNames : List String :=
  ["SCHEMALINT_CONFIG", "SCHEMALINT_SCHEMA_PATH", "SCHEMALINT_LEVEL", "SCHEMALINT_FAIL_ON",
    "SCHEMALINT_MAX_COLUMNS", "SCHEMALINT_DISABLED_RULES"]

/-- The values of these variables, where they have one. -/
def environment : IO Settings.Environment :=
  variableNames.filterMapM fun name => do
    return (← IO.getEnv name).map fun value => (name, value)

/-- The tree with what stands at the end of a path, if anything does. -/
def observeEnd (t : FileTree) (p : Path) : IO FileTree := do
  let place := (← IO.currentDir) / p.text
  if ← place.isDir then return t.put p.target .directory
  else if ← place.pathExists then
    return t.put p.target (.file (.ofBytes (← IO.FS.readBinFile place)))
  else return t

/-- The tree with what stands on the way to the end of a path, and there. -/
def observe (t : FileTree) (p : Path) : IO FileTree :=
  (List.range p.parts.length).foldlM
    (fun t n => observeEnd t { p with parts := p.parts.take (n + 1) }) t

/-- The tree with the file at the end of a path, or with the files of the directory there that can
belong to a snapshot. -/
def observeSnapshot (t : FileTree) (p : Path) : IO FileTree := do
  let t ← observe t p
  let place := (← IO.currentDir) / p.text
  if ← place.isDir then
    let names := (← place.readDir).toList.map (·.fileName)
    (names.filter fun name => name.endsWith Snapshot.fileEnding).foldlM
      (fun t name => observeEnd t (p.child name)) t
  else return t

/-- The tree with all that a run can look at. -/
def surroundings (a : Arguments) (env : Settings.Environment) : IO FileTree := do
  let t ←
    match Settings.configFile? env a.explicit with
    | some p => observe {} p
    | none => pure {}
  let t ←
    match Settings.gather t env a.explicit with
    | .ok settings => observeSnapshot t settings.schemaPath
    | .error _ => pure t
  match a.output with
  | some name => observe t (.ofText name)
  | none => return t

/-- Writes a text to the file at a place, and makes the directories on the way to it. -/
def write (l : Location) (text : String) : IO Unit := do
  let place := (← IO.currentDir) / l.path.text
  match place.parent with
  | some directory => IO.FS.createDirAll directory
  | none => pure ()
  IO.FS.writeFile place text

/-- Runs a command, and gives the status with which the program ends. -/
def execute (a : Arguments) : IO UInt32 := do
  let env ← environment
  let files ← surroundings a env
  match runCommand a env files with
  | .error f =>
    IO.eprintln (f.message?.getD "The run failed: a value or a file is not of the right kind")
    return 1
  | .ok outcome =>
    for (l, text) in files.newTexts outcome.files do
      write l text
    IO.print outcome.output
    IO.eprint (unlines outcome.log)
    return outcome.status.toUInt32

end SchemaAudit.Program

/-- Runs the command that the words of the command line name. -/
def main (words : List String) : IO UInt32 :=
  match SchemaAudit.CommandLine.Arguments.ofWords? words with
  | some a => SchemaAudit.Program.execute a
  | none => do
    IO.eprintln "usage: [-v] (lint | export) [--schema-path PATH] [--config PATH] [options]"
    return SchemaAudit.CommandLine.usageStatus.toUInt32
