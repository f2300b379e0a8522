import SchemaAudit.Number.Binary64

/-!
# The shortest decimal text of a floating-point number

A number is written with the fewest digits that determine it: of all decimal numbers that round to
it, those with the fewest digits, and of these the nearest. `shortest` finds the digits in exact
arithmetic; `text` lays them out.
-/

namespace SchemaAudit.Binary64

/-- Digits as a natural number, and the power of ten of the last of them. -/
structure Decimal where
  /-- The digits. -/
  digits : Nat
  /-- The power of ten that the last digit counts. -/
  exponent : Int
  deriving DecidableEq, Repr

/-- How many zeros follow the decimal point of `num / den` before its first other digit, at most
`limit`. -/
def leadingZeros : Nat → Nat → Nat → Nat
  | 0, _, _ => 0
  | limit + 1, num, den => if den ≤ num * 10 then 0 else leadingZeros limit (num * 10) den + 1

/-- The place of the first digit of `num / den` that is not zero: as many digits stand before the
point, or so many zeros, counted negatively, after it. -/
def firstPlace (num den : Nat) : Int :=
  if den ≤ num then ((toString (num / den)).length : Int) else -(leadingZeros 400 num den : Int)

/-- Of the two decimals with the last digit at `10 ^ exponent` next to the value, the one that lies
between the bounds and is nearer to it. Value and bounds are numerators over `den`. -/
def gridPoint (low value high : Nat) (closed : Bool) (den : Nat) (exponent : Int) :
    Option Decimal :=
  let unit := den * Nat.pow 10 exponent.toNat
  let scale := Nat.pow 10 (-exponent).toNat
  let below := value * scale / unit
  let above := below + 1
  let inside (d : Nat) : Bool :=
    if closed then decide (low * scale ≤ d * unit) && decide (d * unit ≤ high * scale)
    else decide (low * scale < d * unit) && decide (d * unit < high * scale)
  let belowDistance := value * scale - below * unit
  let aboveDistance := above * unit - value * scale
  let belowFirst : Bool :=
    decide (belowDistance < aboveDistance) ||
      (decide (belowDistance = aboveDistance) && decide (below % 2 = 0))
  match inside below, inside above with
  | true, true => some ⟨if belowFirst then below else above, exponent⟩
  | true, false => some ⟨below, exponent⟩
  | false, true => some ⟨above, exponent⟩
  | false, false => none

/-- The first hit on the grids of `count`, `count + 1`, … digits, at most `tries` of them. -/
def firstHit (low value high : Nat) (closed : Bool) (den : Nat) (place : Int) :
    Nat → Nat → Decimal
  | 0, count => ⟨value * Nat.pow 10 (count - place).toNat / den, place - count⟩
  | tries + 1, count =>
    match gridPoint low value high closed den (place - count) with
    | some d => d
    | none => firstHit low value high closed den place tries (count + 1)

/-- The decimal with the fewest digits that rounds to `mantissa * 2 ^ exponent`, and the nearest of
these. The bounds lie half way to the neighbouring numbers; they round to the number itself when
its mantissa is even. -/
def shortest (mantissa : Nat) (exponent : Int) : Decimal :=
  let unit := Nat.pow 2 (exponent - 2).toNat
  let den := Nat.pow 2 (2 - exponent).toNat
  let isLowest : Bool := decide (mantissa = Nat.pow 2 52) && decide (leastExponent < exponent)
  let value := 4 * mantissa
  let low := if isLowest then value - 1 else value - 2
  let high := value + 2
  firstHit (low * unit) (value * unit) (high * unit) (decide (mantissa % 2 = 0)) den
    (firstPlace (value * unit) den) 17 1

/-- The decimal without the zeros at the end of its digits, at most `limit` of them. -/
def Decimal.trim (limit : Nat) (d : Decimal) : Decimal :=
  match limit with
  | 0 => d
  | limit + 1 =>
    if d.digits ≠ 0 ∧ d.digits % 10 = 0 then Decimal.trim limit ⟨d.digits / 10, d.exponent + 1⟩
    else d

/-- The digits with the point after `place` of them: positional, and with a digit on both sides of
the point, from `0.0001` up to numbers of sixteen digits; otherwise with one digit before the
point, no point when that is the only one, and an exponent of at least two digits. -/
def Decimal.layout (d : Decimal) : List Char :=
  let ds := (toString d.digits).toList
  let place : Int := ds.length + d.exponent
  if -4 < place ∧ place ≤ 0 then
    '0' :: '.' :: (List.replicate (-place).toNat '0' ++ ds)
  else if 0 < place ∧ place ≤ 16 then
    if place < ds.length then ds.take place.toNat ++ '.' :: ds.drop place.toNat
    else ds ++ List.replicate (place.toNat - ds.length) '0' ++ ['.', '0']
  else
    let power := place - 1
    let mantissa :=
      match ds with
      | [] => []
      | [c] => [c]
      | c :: cs => c :: '.' :: cs
    let size := (toString power.natAbs).toList
    mantissa ++ 'e' :: (if power < 0 then '-' else '+') ::
      (if size.length < 2 then '0' :: size else size)

/-- The text of a number. -/
def text : Binary64 → String
  | nan => "nan"
  | infinite s => if s then "-inf" else "inf"
  | finite s m e =>
    let body := if m = 0 then ['0', '.', '0'] else ((shortest m e).trim 20).layout
    String.ofList (if s then '-' :: body else body)

end SchemaAudit.Binary64
