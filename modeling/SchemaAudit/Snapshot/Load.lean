import SchemaAudit.Files.Tree
import SchemaAudit.Snapshot.Database

/-!
# Snapshots in files

A snapshot is a single file, or a directory with several files that together describe one database.

* `files?`: the files of a snapshot, in the order in which they are read;
* `combine`: the document of the database that several documents describe together;
* `load`: the database of a snapshot;
* `notes`: what is noted while a snapshot is read.
-/

namespace SchemaAudit.Snapshot

/-- The end of the names of the files that belong to a directory's snapshot. -/
def fileEnding : String := ".yaml"

/-- The files of the snapshot at the end of a path: the file itself, or the entries of the directory
with the right ending, sorted by name. -/
def files? (t : FileTree) (p : Path) : Option (List Path) :=
  match t.find? p with
  | some (.file _) => some [p]
  | some .directory =>
    let names := (t.names p).filter fun name => fileEnding.toList.isSuffixOf name.toList
    some ((Text.sorted names).map p.child)
  | none => none

/-- The mapping in a file. -/
def fileMapping [Yaml.Library] (t : FileTree) (p : Path) : Except Failure Doc :=
  match t.find? p with
  | none => .error (.snapshot (.pathMissing p.text))
  | some .directory => .error .isDirectory
  | some (.file content) => do
    let d ← content.read (.snapshot (.invalidYaml p.text))
    require (d != .null) (.emptyFile p.text)
    require d.isMap (.fileNotMapping p.text)
    .ok d

/-- Refuses a document with an unknown section, or one with a section that has no parts. -/
def checkSections (d : Doc) : Except Failure Unit := do
  d.requireKnown sections fun names => .snapshot (.unknownSections names)
  sections.forM fun name => do
    let _ ← readParts (d.get name)

/-- The parts of a section in several documents together. -/
def sectionParts (ds : List Doc) (name : String) : List Doc :=
  ds.flatMap fun d => (d.get name).parts?.getD []

/-- The document whose sections have the parts of those of several documents. -/
def combine (ds : List Doc) : Doc :=
  .map (sections.map fun name => (.text name, .list (sectionParts ds name)))

/-- The database that several documents describe together. -/
def readDocuments (ds : List Doc) : Except Failure Database := do
  ds.forM checkSections
  readDatabase (combine ds)

/-- The database of the snapshot at the end of a path. -/
def load [Yaml.Library] (t : FileTree) (p : Path) : Except Failure Database := do
  match files? t p with
  | none => .error (.snapshot (.pathMissing p.text))
  | some ps => readDocuments (← ps.mapM (fileMapping t))

/-! ### Notes -/

/-- The note that a file is read. -/
def readingNote (p : Path) : String :=
  s!"Reading schema snapshot {p.text}"

/-- The note of what a database holds. -/
def loadedNote (d : Database) : String :=
  s!"Loaded {d.tables.length} tables, {d.views.length} views, " ++
    s!"{d.sequences.length} sequences, {d.synonyms.length} synonyms, {d.routines.length} routines"

/-- The notes on reading files, up to the first one that cannot be read. -/
def readingNotes [Yaml.Library] (t : FileTree) : List Path → List String
  | [] => []
  | p :: ps =>
    match fileMapping t p with
    | .ok _ => readingNote p :: readingNotes t ps
    | .error _ => [readingNote p]

/-- The notes on loading a snapshot. -/
def notes [Yaml.Library] (t : FileTree) (p : Path) : List String :=
  let loaded :=
    match load t p with
    | .ok d => [loadedNote d]
    | .error _ => []
  readingNotes t ((files? t p).getD []) ++ loaded

end SchemaAudit.Snapshot
