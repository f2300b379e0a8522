import SchemaAudit.Calendar
import SchemaAudit.Number.Binary64

/-!
# Documents

A document is a tree of plain values: what a snapshot file or a settings file says before anything
is known of tables and rules. Mappings keep the order of their entries, and their keys can be any
value that has no parts.

* `get?`: the value of a named field;
* `isPresent`: whether a value says anything at all;
* `items?`: the parts of a value that is read as a list;
* `sameKey`: when two keys of a mapping are the same.
-/

namespace SchemaAudit

/-- A tree of plain values. -/
inductive Doc where
  | null
  | bool (b : Bool)
  | int (n : Int)
  | float (x : Binary64)
  | text (s : String)
  | date (d : Date)
  | moment (m : Moment)
  | list (items : List Doc)
  | map (entries : List (Doc × Doc))
  deriving Repr, Inhabited

namespace Doc

/-! ### Equality of trees -/

mutual

/-- Whether two documents are the same tree. -/
def same : Doc → Doc → Bool
  | .null, .null => true
  | .bool a, .bool b => decide (a = b)
  | .int a, .int b => decide (a = b)
  | .float a, .float b => decide (a = b)
  | .text a, .text b => decide (a = b)
  | .date a, .date b => decide (a = b)
  | .moment a, .moment b => decide (a = b)
  | .list a, .list b => sameList a b
  | .map a, .map b => sameEntries a b
  | _, _ => false

/-- `same` for lists of documents. -/
def sameList : List Doc → List Doc → Bool
  | [], [] => true
  | a :: as, b :: bs => same a b && sameList as bs
  | _, _ => false

/-- `same` for lists of entries. -/
def sameEntries : List (Doc × Doc) → List (Doc × Doc) → Bool
  | [], [] => true
  | (k, v) :: as, (l, w) :: bs => same k l && same v w && sameEntries as bs
  | _, _ => false

end

mutual

theorem same_iff : (a b : Doc) → (same a b = true ↔ a = b)
  | .null, b => by cases b <;> simp [same]
  | .bool _, b => by cases b <;> simp [same]
  | .int _, b => by cases b <;> simp [same]
  | .float _, b => by cases b <;> simp [same]
  | .text _, b => by cases b <;> simp [same]
  | .date _, b => by cases b <;> simp [same]
  | .moment _, b => by cases b <;> simp [same]
  | .list as, b => by
    cases b with
    | list bs => simp [same, sameList_iff as bs]
    | _ => simp [same]
  | .map as, b => by
    cases b with
    | map bs => simp [same, sameEntries_iff as bs]
    | _ => simp [same]

theorem sameList_iff : (as bs : List Doc) → (sameList as bs = true ↔ as = bs)
  | [], bs => by cases bs <;> simp [sameList]
  | a :: as, bs => by
    cases bs with
    | nil => simp [sameList]
    | cons b bs => simp [sameList, same_iff a b, sameList_iff as bs]

theorem sameEntries_iff : (as bs : List (Doc × Doc)) → (sameEntries as bs = true ↔ as = bs)
  | [], bs => by cases bs <;> simp [sameEntries]
  | (k, v) :: as, bs => by
    cases bs with
    | nil => simp [sameEntries]
    | cons b bs =>
      obtain ⟨l, w⟩ := b
      simp [sameEntries, same_iff k l, same_iff v w, sameEntries_iff as bs]

end

instance : DecidableEq Doc := fun a b => decidable_of_iff (same a b = true) (same_iff a b)

/-! ### Reading -/

/-- Whether a value says anything: `null`, `false`, zero, the empty text and a list or mapping
without parts do not. -/
def isPresent : Doc → Bool
  | .null => false
  | .bool b => b
  | .int n => n != 0
  | .float x => !x.isZero
  | .text s => s != ""
  | .date _ => true
  | .moment _ => true
  | .list items => !items.isEmpty
  | .map entries => !entries.isEmpty

/-- The value under a text key of a list of entries. -/
def fieldOf? (name : String) : List (Doc × Doc) → Option Doc
  | [] => none
  | (k, v) :: rest => if k = .text name then some v else fieldOf? name rest

/-- The value of a named field of a mapping. -/
def get? (name : String) : Doc → Option Doc
  | .map entries => fieldOf? name entries
  | _ => none

/-- The value of a named field, `null` when there is none. -/
def get (name : String) (d : Doc) : Doc :=
  (d.get? name).getD .null

/-- The entries of a mapping. -/
def entries : Doc → List (Doc × Doc)
  | .map es => es
  | _ => []

/-- Whether the value is a mapping. -/
def isMap : Doc → Bool
  | .map _ => true
  | _ => false

/-- The parts of a value in a place where a list is read: the items of a list, the characters of a
text, the keys of a mapping. Other values have no parts. -/
def items? : Doc → Option (List Doc)
  | .list items => some items
  | .text s => some (s.toList.map fun c => .text (String.ofList [c]))
  | .map entries => some (entries.map (·.1))
  | _ => none

/-- The parts of an optional list: a value that says nothing stands for the empty one. -/
def parts? (d : Doc) : Option (List Doc) :=
  if d.isPresent then d.items? else some []

/-- A single text in the place of a list stands for the list of that text alone. -/
def asNames : Doc → Doc
  | .text s => .list [.text s]
  | d => d

/-- Whether the value may be a key of a mapping: it has no parts of its own. -/
def isAtom : Doc → Bool
  | .list _ => false
  | .map _ => false
  | _ => true

/-- The number that a truth value counts as among keys. -/
def boolNumber (b : Bool) : Int :=
  if b then 1 else 0

/-- Whether two keys are the same: numbers by value, whatever their kind, `true` being one and
`false` zero, moments by the instant, and all else by the value itself. -/
def sameKey : Doc → Doc → Bool
  | .bool a, .int n => boolNumber a == n
  | .int n, .bool a => boolNumber a == n
  | .bool a, .float x => x.equalsInt (boolNumber a)
  | .float x, .bool a => x.equalsInt (boolNumber a)
  | .int n, .float x => x.equalsInt n
  | .float x, .int n => x.equalsInt n
  | .float x, .float y => x.equals y
  | .moment a, .moment b => a.same b
  | a, b => a == b

/-- Adds an entry to a mapping: a key that is already there keeps its place and its spelling, and
takes the new value. -/
def putEntry (key value : Doc) : List (Doc × Doc) → List (Doc × Doc)
  | [] => [(key, value)]
  | (k, v) :: rest =>
    if sameKey k key then (k, value) :: rest else (k, v) :: putEntry key value rest

/-- The mapping that results from writing the entries one after the other. -/
def ofEntries (es : List (Doc × Doc)) : Doc :=
  .map (es.foldl (fun acc e => putEntry e.1 e.2 acc) [])

end Doc

end SchemaAudit
