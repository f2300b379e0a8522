import SchemaAudit.Doc.Reading
import SchemaAudit.Doc.Wording

/-!
# Fields of definitions

The steps that the readers of all definitions share: a definition is a mapping, some have no fields
but the known ones, lists may be absent, and names and integers have their rules.
-/

namespace SchemaAudit.Snapshot

/-- Goes on if the condition holds. -/
def require (holds : Bool) (fault : SnapshotFault) : Except Failure Unit :=
  if holds then .ok () else .error (.snapshot fault)

/-- Refuses a definition that is no mapping, or has a field that is not known. -/
def checkFields (kind : Definition) (known : List String) (d : Doc) : Except Failure Unit := do
  require d.isMap (.notMapping kind d)
  d.requireKnown known fun names => .snapshot (.unknownFields kind names)

/-- The parts of an optional list. -/
def readParts (d : Doc) : Except Failure (List Doc) :=
  match d.parts? with
  | some ds => .ok ds
  | none => .error .wrongShape

/-- The results of reading every part of an optional list. -/
def readList {α : Type} (read : Doc → Except Failure α) (d : Doc) : Except Failure (List α) := do
  let ds ← readParts d
  ds.mapM read

/-- The parts of an optional list in which a single text stands for the list of that text alone. -/
def readNames (d : Doc) : Except Failure (List Doc) :=
  if d.isPresent then readParts d.asNames else .ok []

/-- The value of a field, or the given one if the field is absent. -/
def fieldOr (d : Doc) (name : String) (fallback : Doc) : Doc :=
  (d.get? name).getD fallback

/-- An integer that belongs to the named owner. Truth values are no integers here, nor are integers
that cannot be written. -/
def readInteger (owner field : String) (d : Doc) : Except Failure Int := do
  let fault : SnapshotFault := .notInteger owner field d
  require (d.isWritable && d != .bool true && d != .bool false) fault
  d.readInteger (.snapshot fault)

/-- An integer, or nothing where the value is `null`. -/
def readOptionalInteger (owner field : String) (d : Doc) : Except Failure (Option Int) :=
  if d = .null then .ok none
  else do
    let n ← readInteger owner field d
    .ok (some n)

/-- The name made of a local name and a schema. A blank schema counts as absent. -/
def makeIdentifier (localName : String) (schema : Doc) : Except Failure Identifier := do
  let text ← schema.write
  let schema? : Option String :=
    if schema = .null ∨ Text.isBlankString text then none else some text
  match Identifier.ofFields localName schema? none none with
  | .ok name => .ok name
  | .error fault => .error (.snapshot (.invalidName localName fault))

/-- The name of a definition, given by one of its fields and the field `schema`. -/
def readName (kind : Definition) (field : String) (d : Doc) : Except Failure Identifier := do
  let name := d.get field
  require name.isPresent (.missingField kind field)
  let localName ← name.write
  require (!Text.isBlankString localName) (.missingField kind field)
  makeIdentifier localName (d.get "schema")

/-- The text of a value that is one of a few words: in small letters, with spaces for
underscores. -/
def wordOf (d : Doc) : String :=
  String.ofList ((Text.lower d.display.toList).map fun c => if c = '_' then ' ' else c)

end SchemaAudit.Snapshot
