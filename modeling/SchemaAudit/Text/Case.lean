import SchemaAudit.Text.CaseTable

/-!
# Letter case

`lower` and `upper` are the full case mappings of Unicode: a character can have a counterpart of
several characters, and a capital sigma at the end of a word becomes the small final sigma.
-/

namespace SchemaAudit.Text

/-- The counterpart of a code point that belongs to the run, if it does. -/
def CaseRun.image? (r : CaseRun) (n : Nat) : Option Nat :=
  if r.1 ≤ n ∧ n ≤ r.2.1 ∧ (n - r.1) % r.2.2.1 = 0 then some (Int.toNat (n + r.2.2.2)) else none

/-- The counterpart of a character in the runs; a character in none of them is its own. -/
def shiftCase (groups : List (List CaseRun)) (c : Char) : Char :=
  match groups.findSome? (fun g => g.findSome? (·.image? c.toNat)) with
  | some n => Char.ofNat n
  | none => c

/-- Whether the character has the property `Cased` and is not passed over. -/
def isCased (c : Char) : Bool :=
  if c.toNat < 0x80 then c.isAlpha else inRangeGroups casedGroups c

/-- Whether the character is passed over in the search for a cased neighbour. -/
def isCaseIgnorable (c : Char) : Bool :=
  inRangeGroups ignorableGroups c

/-- The small letter of a capital sigma, given the characters before it (nearest first) and after
it: the final form stands after a cased character and not before one. -/
def lowerSigma (before after : List Char) : Char :=
  let nextIsCased (cs : List Char) : Bool := (cs.dropWhile isCaseIgnorable).head?.any isCased
  if nextIsCased before && !nextIsCased after then 'ς' else 'σ'

/-- The small form of one character, given its neighbours. -/
def lowerChar (before : List Char) (c : Char) (after : List Char) : List Char :=
  if c.toNat < 0x80 then [c.toLower]
  else if c = 'Σ' then [lowerSigma before after]
  else if c = 'İ' then ['i', '\u0307']
  else [shiftCase lowerRunGroups c]

/-- Small forms of a text that follows the characters `before` (nearest first). -/
def lowerAfter (before : List Char) : List Char → List Char
  | [] => []
  | c :: cs => lowerChar before c cs ++ lowerAfter (c :: before) cs

/-- The text in small letters. -/
def lower (cs : List Char) : List Char :=
  lowerAfter [] cs

/-- The capital form of one character. -/
def upperChar (c : Char) : List Char :=
  if c.toNat < 0x80 then [c.toUpper]
  else
    match upperExpansionGroups.findSome? (·.lookup c.toNat) with
    | some ns => ns.map Char.ofNat
    | none => [shiftCase upperRunGroups c]

/-- The text in capitals. -/
def upper (cs : List Char) : List Char :=
  cs.flatMap upperChar

/-- `lower` on strings. -/
def lowerString (s : String) : String :=
  String.ofList (lower s.toList)

/-- `upper` on strings. -/
def upperString (s : String) : String :=
  String.ofList (upper s.toList)

end SchemaAudit.Text
