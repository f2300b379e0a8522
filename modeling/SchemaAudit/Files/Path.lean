import SchemaAudit.Text.Blank

/-!
# Paths

A path names a file or directory by the steps that lead to it: from the root, or from the working
directory.

* `Path.ofText`: reads a path; empty steps and steps that stay where they are do not count;
* `Path.text`: writes a path, the working directory as a single point;
* `Location`: the place that the steps of a path lead to.
-/

namespace SchemaAudit

/-! ### Paths -/

/-- A root, and the steps from it. -/
structure Path where
  /-- Nothing for a path from the working directory, otherwise one slash or two. -/
  root : String := ""
  parts : List String := []
  deriving DecidableEq, Repr

namespace Path

/-- The root at the start of a text. Exactly two slashes are a root of their own. -/
def rootOf (cs : List Char) : String :=
  match (cs.takeWhile (· = '/')).length with
  | 0 => ""
  | 2 => "//"
  | _ => "/"

/-- The path that a text names. -/
def ofText (s : String) : Path :=
  ⟨rootOf s.toList, (Text.splitString '/' s).filter fun part => part != "" && part != "."⟩

/-- The text that names a path. -/
def text (p : Path) : String :=
  if p.root = "" ∧ p.parts = [] then "." else p.root ++ String.intercalate "/" p.parts

/-- The path that leads one step less far. -/
def parent (p : Path) : Path :=
  { p with parts := p.parts.dropLast }

/-- Whether a file can have the path: no name holds the character that ends a name. -/
def isUsable (p : Path) : Bool :=
  p.parts.all fun part => !part.toList.contains '\x00'

/-- The path of an entry of a directory. -/
def child (p : Path) (name : String) : Path :=
  { p with parts := p.parts ++ [name] }

end Path

/-! ### Places -/

/-- A place in the file system: the names on the way to it from a root or, if there is none, from
the directory that is `up` steps above the working directory. -/
structure Location where
  root : String := ""
  up : Nat := 0
  names : List String := []
  deriving DecidableEq, Repr

namespace Location

/-- The place to which a step leads. Two points lead to the directory above, which is the root
itself at the root. -/
def step (l : Location) (part : String) : Location :=
  if part = ".." then
    if l.names.isEmpty then
      if l.root = "" then { l with up := l.up + 1 } else l
    else { l with names := l.names.dropLast }
  else { l with names := l.names ++ [part] }

/-- Whether a place is in the directory, as one of its entries. -/
def isEntryOf (l directory : Location) : Bool :=
  !l.names.isEmpty && { l with names := l.names.dropLast } == directory

/-- The path to a place. -/
def path (l : Location) : Path :=
  ⟨l.root, List.replicate l.up ".." ++ l.names⟩

end Location

/-- The place where a path starts. -/
def Path.start (p : Path) : Location :=
  { root := p.root }

/-- The place to which the steps of a path lead if nothing stands in the way. -/
def Path.target (p : Path) : Location :=
  p.parts.foldl Location.step p.start

end SchemaAudit
