import SchemaAudit.Text.Basic
import SchemaAudit.Text.Blank

/-!
# Integers written as text

An integer may be written with a sign, with the decimal digits of any script, and with single
underscores between digits. Blanks around it are passed over. A text of more than 4300 digits
denotes no integer, and an integer of more than 4300 digits has no text.
-/

namespace SchemaAudit.Number

/-- The greatest number of digits of an integer in a text. -/
def digitLimit : Nat := 4300

/-- The blanks that may surround an integer: of the ASCII ones only the controls that move the
print position and the space, and all others. -/
def isIntegerMargin (c : Char) : Bool :=
  if c.toNat < 0x80 then decide (c = ' ') || (decide (0x09 ≤ c.toNat) && decide (c.toNat ≤ 0x0d))
  else Text.isBlank c

/-- The text without the blanks around an integer. -/
def trimInteger (cs : List Char) : List Char :=
  ((cs.dropWhile isIntegerMargin).reverse.dropWhile isIntegerMargin).reverse

/-- The values of digits that are separated by single underscores. An underscore stands between
two digits. -/
def separatedDigits? : List Char → Option (List Nat)
  | [] => none
  | [c] => (Text.digit? c).map ([·])
  | c :: d :: cs =>
    match Text.digit? c with
    | none => none
    | some n =>
      if d = '_' then (separatedDigits? cs).map (n :: ·)
      else (separatedDigits? (d :: cs)).map (n :: ·)

/-- The sign of a number and the text behind it. -/
def takeSign : List Char → Bool × List Char
  | '-' :: cs => (true, cs)
  | '+' :: cs => (false, cs)
  | cs => (false, cs)

/-- The integer that a text denotes. -/
def readInteger? (cs : List Char) : Option Int :=
  let (negative, body) := takeSign (trimInteger cs)
  match separatedDigits? body with
  | none => none
  | some ds =>
    if digitLimit < ds.length then none
    else
      let n : Int := Text.ofDigits 10 ds
      some (if negative then -n else n)

/-- Whether a number has at most `limit` decimal digits. -/
def fitsDigits : (limit : Nat) → Nat → Bool
  | 0, n => n == 0
  | limit + 1, n => n == 0 || fitsDigits limit (n / 10)

/-- The numbers with at most `limit` digits are those below a power of ten. -/
theorem fitsDigits_iff (limit n : Nat) : fitsDigits limit n = true ↔ n < Nat.pow 10 limit := by
  induction limit generalizing n with
  | zero => simp [fitsDigits]
  | succ limit ih =>
    have hstep : Nat.pow 10 (limit + 1) = Nat.pow 10 limit * 10 := rfl
    have hpos : 0 < Nat.pow 10 limit := Nat.pow_pos (show 0 < 10 by decide)
    rw [fitsDigits, Bool.or_eq_true, ih, beq_iff_eq, hstep]
    omega

/-- Whether an integer has a text. -/
def isWritable (n : Int) : Bool :=
  fitsDigits digitLimit n.natAbs

end SchemaAudit.Number
