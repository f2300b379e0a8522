import SchemaAudit.Failure
import SchemaAudit.Number.Integer

/-!
# Reading documents

Snapshots and settings are YAML texts, and reading such a text is the work of a library. Here is
all that the rest of the project knows of it: a text holds a document, or it has none for one of a
few reasons (`Yaml.Fault`). The values that a library can give are those of a `Doc`; a run is one of
the library that it is made with (`Yaml.Library`).

Where a setting or a definition has an integer, a document may give it as a number or as a text
that denotes one (`readInteger`). Mappings in snapshots and settings have no fields but the known
ones: `requireKnown` refuses a mapping with others, and names all of them.
-/

namespace SchemaAudit

namespace Yaml

/-! ### Texts -/

/-- Why a text has no value. -/
inductive Fault where
  /-- The text does not follow the grammar, or the library has no value for a part of it. -/
  | malformed
  /-- A number, a time or a character is written that does not exist. -/
  | impossible
  /-- A number is too large for its kind. -/
  | tooLarge
  /-- The library fails in a way that is none of these. -/
  | other
  deriving DecidableEq, Repr

/-- A library that reads YAML texts. -/
class Library where
  /-- The texts that follow the grammar. -/
  IsYaml : String → Prop
  /-- The document that a text holds, or why it holds none. -/
  read : String → Except Fault Doc

end Yaml

namespace Doc

/-! ### Integers -/

/-- The integer that a value stands for: an integer stands for itself, a truth value for one or
zero, a floating-point number for its part before the point, and a text for the integer it denotes.
For every other value the answer is the given failure, except that an infinite number is one of its
own. -/
def readInteger (other : Failure) : Doc → Except Failure Int
  | .int n => .ok n
  | .bool b => .ok (boolNumber b)
  | .float x =>
    match x.truncate? with
    | some n => .ok n
    | none => .error (if x = .nan then other else .notFinite)
  | .text s =>
    match Number.readInteger? s.toList with
    | some n => .ok n
    | none => .error other
  | _ => .error other

/-! ### Known fields -/

/-- The texts of keys. A key that is no text cannot be listed among texts. -/
def keyTexts (keys : List Doc) : Except Failure (List String) :=
  keys.mapM fun
    | .text s => .ok s
    | _ => .error .wrongShape

/-- The keys of a mapping that are not among the known ones. -/
def unknownKeys (d : Doc) (known : List String) : List Doc :=
  (d.entries.map (·.1)).filter fun k => !(known.map Doc.text).contains k

/-- Refuses a mapping with a key that is not known; the fault names all of these, sorted. -/
def requireKnown (d : Doc) (known : List String) (fault : List String → Failure) :
    Except Failure Unit :=
  match d.unknownKeys known with
  | [] => .ok ()
  | k :: ks => do
    let names ← keyTexts (k :: ks)
    .error (fault (Text.sorted names))

end Doc

end SchemaAudit
