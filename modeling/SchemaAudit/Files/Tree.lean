import SchemaAudit.Doc.Reading
import SchemaAudit.Failure
import SchemaAudit.Files.Path

/-!
# File trees

What a run sees of the file system is a tree of directories and files, given as data. The working
directory, the directories above it and the roots are always there; all else is where the entries of
the tree say so.

* `FileTree.find?`: what stands at the end of a path;
* `FileTree.names`: the names in a directory;
* `FileTree.save`: writes a file, and makes the directories on the way to it.
-/

namespace SchemaAudit

/-- What a file holds. -/
inductive FileContent where
  | text (s : String)
  /-- Bytes that are no text. -/
  | undecodable
  /-- A document that is known already. -/
  | document (d : Doc)
  deriving DecidableEq, Repr

namespace FileContent

/-- What a file with the given bytes holds. -/
def ofBytes (bytes : ByteArray) : FileContent :=
  match String.fromUTF8? bytes with
  | some s => .text s
  | none => .undecodable

/-- How a fault of a text fails. A text that does not follow the grammar fails as given. -/
def failureOf (malformed : Failure) : Yaml.Fault → Failure
  | .malformed => malformed
  | .impossible => .impossibleValue
  | .tooLarge => .notFinite
  | .other => .wrongKind

/-- The document in a file. -/
def read [Yaml.Library] (malformed : Failure) : FileContent → Except Failure Doc
  | .document d => .ok d
  | .text s => (Yaml.Library.read s).mapError (failureOf malformed)
  | .undecodable => .error .impossibleValue

end FileContent

/-- What stands at a place. -/
inductive FileEntry where
  | directory
  | file (content : FileContent)
  deriving DecidableEq, Repr

/-- What keeps a path from leading anywhere. -/
inductive Obstacle where
  /-- Nothing is there to step into. -/
  | missing
  /-- A file is there, into which nothing can step. -/
  | file
  deriving DecidableEq, Repr

/-- The directories and files that are known, by their places. -/
structure FileTree where
  entries : List (Location × FileEntry) := []
  deriving DecidableEq, Repr

namespace FileTree

/-! ### Looking -/

/-- What stands at a place. -/
def entry? (t : FileTree) (l : Location) : Option FileEntry :=
  if l.names.isEmpty then some .directory else t.entries.lookup l

/-- The place to which steps lead. Each step starts in a directory. -/
def locate (t : FileTree) (l : Location) : List String → Except Obstacle Location
  | [] => .ok l
  | part :: parts =>
    match t.entry? l with
    | some .directory => t.locate (l.step part) parts
    | some (.file _) => .error .file
    | none => .error .missing

/-- What stands at the end of a path. -/
def find? (t : FileTree) (p : Path) : Option FileEntry :=
  match t.locate p.start p.parts with
  | .ok l => t.entry? l
  | .error _ => none

/-- The names of the entries of the directory at the end of a path. -/
def names (t : FileTree) (p : Path) : List String :=
  match t.locate p.start p.parts with
  | .ok l => (t.entries.filter (·.1.isEntryOf l)).filterMap (·.1.names.getLast?)
  | .error _ => []

/-! ### Changing -/

/-- Puts an entry at a place, over the one that is there. -/
def putIn (l : Location) (e : FileEntry) : List (Location × FileEntry) →
    List (Location × FileEntry)
  | [] => [(l, e)]
  | (m, f) :: rest => if m = l then (l, e) :: rest else (m, f) :: putIn l e rest

/-- The tree with an entry at a place. -/
def put (t : FileTree) (l : Location) (e : FileEntry) : FileTree :=
  ⟨putIn l e t.entries⟩

/-- The tree with a directory at a place. -/
def makeDirectory (t : FileTree) (l : Location) : Except Failure FileTree :=
  match t.entry? l with
  | some .directory => .ok t
  | some (.file _) => .error .fileExists
  | none => .ok (t.put l .directory)

/-- The tree with a directory at the end of steps, which are given from the last one to the first
one, and with the directories on the way to it. -/
def makeDirectories (t : FileTree) (l : Location) : List String → Except Failure FileTree
  | [] => .ok t
  | part :: before =>
    match t.locate l (part :: before).reverse with
    | .ok m => t.makeDirectory m
    | .error .file => .error .notDirectory
    | .error .missing => do
      let t ← t.makeDirectories l before
      match t.locate l (part :: before).reverse with
      | .ok m => t.makeDirectory m
      | .error _ => .error .notDirectory

/-- The tree with a file that holds a text at the end of a path, and with the directories on the way
to it. -/
def save (t : FileTree) (p : Path) (s : String) : Except Failure FileTree := do
  if !p.parent.isUsable then .error .unusablePath
  let t ← t.makeDirectories p.start p.parent.parts.reverse
  if !p.isUsable then .error .unusablePath
  match t.locate p.start p.parts with
  | .error _ => .error .notDirectory
  | .ok l =>
    match t.entry? l with
    | some .directory => .error .isDirectory
    | _ => .ok (t.put l (.file (.text s)))

/-- The tree with a directory at every place to which the steps lead, one after the other. -/
def addDirectories (t : FileTree) (l : Location) : List String → FileTree
  | [] => t
  | part :: parts =>
    let m := l.step part
    (if (t.entry? m).isSome then t else t.put m .directory).addDirectories m parts

/-- The tree with an entry at the end of a path, and with directories on the way to it. -/
def add (t : FileTree) (p : Path) (e : FileEntry) : FileTree :=
  (t.addDirectories p.start p.parts.dropLast).put p.target e

/-- The files that hold a text in one tree and not the same one in another, with their texts. -/
def newTexts (before after : FileTree) : List (Location × String) :=
  after.entries.filterMap fun (l, e) =>
    match e with
    | .file (.text s) => if before.entry? l = some e then none else some (l, s)
    | _ => none

end FileTree

end SchemaAudit
