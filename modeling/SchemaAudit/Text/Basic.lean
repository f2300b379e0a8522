/-!
# Characters, digits and the order of texts

* `CodeRange`: classes of characters, as lists of closed ranges of code points;
* `digit?`, `hexDigit?`, `ofDigits`: the values of digits and of numerals;
* `sorted`, `distinct`: texts in the order of their code points, and lists without repetitions.
-/

namespace SchemaAudit.Text

/-! ### Classes of characters -/

/-- The code points from the first to the last number, both included. -/
abbrev CodeRange := Nat × Nat

/-- Whether the range holds the code point `n`. -/
def CodeRange.holds (r : CodeRange) (n : Nat) : Bool :=
  decide (r.1 ≤ n) && decide (n ≤ r.2)

/-- Whether one of the ranges holds the character. -/
def inRanges (rs : List CodeRange) (c : Char) : Bool :=
  rs.any (·.holds c.toNat)

/-- Whether one of the groups of ranges holds the character. -/
def inRangeGroups (gs : List (List CodeRange)) (c : Char) : Bool :=
  gs.any (inRanges · c)

/-! ### Digits -/

/-- The code points of the digits zero outside ASCII. -/
def otherZeros : List Nat :=
  [0x660, 0x6f0, 0x7c0, 0x966, 0x9e6, 0xa66, 0xae6, 0xb66, 0xbe6, 0xc66, 0xce6, 0xd66, 0xde6,
   0xe50, 0xed0, 0xf20, 0x1040, 0x1090, 0x17e0, 0x1810, 0x1946, 0x19d0, 0x1a80, 0x1a90, 0x1b50,
   0x1bb0, 0x1c40, 0x1c50, 0xa620, 0xa8d0, 0xa900, 0xa9d0, 0xa9f0, 0xaa50, 0xabf0, 0xff10,
   0x104a0, 0x10d30, 0x11066, 0x110f0, 0x11136, 0x111d0, 0x112f0, 0x11450, 0x114d0, 0x11650,
   0x116c0, 0x11730, 0x118e0, 0x11950, 0x11c50, 0x11d50, 0x11da0, 0x16a60, 0x16ac0, 0x16b50,
   0x1d7ce, 0x1d7d8, 0x1d7e2, 0x1d7ec, 0x1d7f6, 0x1e140, 0x1e2f0, 0x1e950, 0x1fbf0]

/-- The value of an ASCII digit. -/
def asciiDigit? (c : Char) : Option Nat :=
  if '0' ≤ c ∧ c ≤ '9' then some (c.toNat - 48) else none

/-- The value of a decimal digit of any script. -/
def digit? (c : Char) : Option Nat :=
  match asciiDigit? c with
  | some d => some d
  | none => (otherZeros.find? (fun z => z ≤ c.toNat ∧ c.toNat ≤ z + 9)).map (c.toNat - ·)

/-- The value of a hexadecimal digit, in small letters or capitals. -/
def hexDigit? (c : Char) : Option Nat :=
  if '0' ≤ c ∧ c ≤ '9' then some (c.toNat - 48)
  else if 'a' ≤ c ∧ c ≤ 'f' then some (c.toNat - 87)
  else if 'A' ≤ c ∧ c ≤ 'F' then some (c.toNat - 55)
  else none

/-- The number that digits, most significant first, denote in a base. -/
def ofDigits (base : Nat) (ds : List Nat) : Nat :=
  ds.foldl (fun n d => n * base + d) 0

/-- The digit with a value below sixteen, in small letters. -/
def hexChar (d : Nat) : Char :=
  Char.ofNat (if d < 10 then 48 + d else 87 + d)

/-- The last `width` hexadecimal digits of a number. -/
def hexPadded : Nat → Nat → List Char
  | 0, _ => []
  | width + 1, n => hexPadded width (n / 16) ++ [hexChar (n % 16)]

/-- The last `width` decimal digits of a number. -/
def decimalPadded : Nat → Nat → List Char
  | 0, _ => []
  | width + 1, n => decimalPadded width (n / 10) ++ [Char.ofNat (48 + n % 10)]

/-! ### Order -/

/-- Puts a text before the first one that is greater. -/
def insertSorted (s : String) : List String → List String
  | [] => [s]
  | t :: ts => if s ≤ t then s :: t :: ts else t :: insertSorted s ts

/-- The texts in ascending order of code points. -/
def sorted : List String → List String
  | [] => []
  | s :: ts => insertSorted s (sorted ts)

/-- The list without later repetitions of an element. -/
def distinct {α : Type} [BEq α] : List α → List α
  | [] => []
  | a :: as => a :: (distinct as).filter (fun b => !(b == a))

end SchemaAudit.Text
