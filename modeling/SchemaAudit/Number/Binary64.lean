/-!
# Floating-point numbers of 64 bits

A number with a fractional part is one of the binary numbers of 53 significant bits, an infinity,
or not a number. The finite ones are kept as an exact product `mantissa * 2 ^ exponent`:

* `ofRatio` rounds a quotient of natural numbers to the nearest number, a tie to the even one;
* `ofDecimal` reads decimal digits with an exponent of ten;
* `add` and `mul` are the exact result, rounded once;
* `truncate?` is the integer between zero and the number, when the number is finite.
-/

namespace SchemaAudit

/-- A number of 53 significant bits, an infinity, or not a number. -/
inductive Binary64 where
  /-- Not a number. It differs from every number. -/
  | nan
  /-- A magnitude beyond the greatest finite number. -/
  | infinite (negative : Bool)
  /-- The number `mantissa * 2 ^ exponent`, or its opposite. -/
  | finite (negative : Bool) (mantissa : Nat) (exponent : Int)
  deriving DecidableEq, Repr

namespace Binary64

/-- The exponent of the least positive number. -/
def leastExponent : Int := -1074

/-- The greatest exponent of a mantissa with 53 bits. -/
def greatestExponent : Int := 971

/-- Zero, with its sign. -/
def zero (negative : Bool) : Binary64 :=
  .finite negative 0 leastExponent

/-- The quotient `num / den` multiplied by two to the power `shift`, rounded to the nearest natural
number, a tie to the even one. -/
def scaledQuotient (num den : Nat) (shift : Int) : Nat :=
  let n := num * Nat.pow 2 shift.toNat
  let d := den * Nat.pow 2 (-shift).toNat
  let q := n / d
  let r := n % d
  if 2 * r < d then q
  else if d < 2 * r then q + 1
  else if q % 2 = 0 then q else q + 1

/-- The exponent at which the quotient `num / den` has a mantissa of 53 bits. -/
def exponentOfRatio (num den : Nat) : Int :=
  let guess : Int := (num.log2 : Int) - (den.log2 : Int) - 52
  let fits : Bool :=
    decide (Nat.pow 2 52 * (den * Nat.pow 2 guess.toNat) ≤ num * Nat.pow 2 (-guess).toNat)
  if fits then guess else guess - 1

/-- The number nearest to the quotient of two natural numbers, or to its opposite. A quotient
beyond the greatest number becomes an infinity. -/
def ofRatio (negative : Bool) (num den : Nat) : Binary64 :=
  if num = 0 then zero negative
  else
    let e := max leastExponent (exponentOfRatio num den)
    let m := scaledQuotient num den (-e)
    let mantissa := if m = Nat.pow 2 53 then Nat.pow 2 52 else m
    let exponent := if m = Nat.pow 2 53 then e + 1 else e
    if greatestExponent < exponent then .infinite negative
    else .finite negative mantissa exponent

/-- The number nearest to `digits * 10 ^ exponent`. Exponents far outside the range of the numbers
are answered without raising ten to their power. -/
def ofDecimal (negative : Bool) (digits : Nat) (exponent : Int) : Binary64 :=
  if digits = 0 then zero negative
  else if 400 < exponent then .infinite negative
  else if exponent + (digits.log2 : Int) < -1400 then zero negative
  else ofRatio negative (digits * Nat.pow 10 exponent.toNat) (Nat.pow 10 (-exponent).toNat)

/-- The number nearest to an integer. -/
def ofInt (n : Int) : Binary64 :=
  ofRatio (decide (n < 0)) n.natAbs 1

/-- The opposite number. -/
def neg : Binary64 → Binary64
  | nan => nan
  | infinite s => infinite (!s)
  | finite s m e => finite (!s) m e

/-- The signed mantissa, and the exponent, of a sum of two products, before it is rounded. -/
def exactSum (s : Bool) (m : Nat) (e : Int) (t : Bool) (n : Nat) (f : Int) : Int × Int :=
  let g := min e f
  let a : Int := m * Nat.pow 2 (e - g).toNat
  let b : Int := n * Nat.pow 2 (f - g).toNat
  ((if s then -a else a) + (if t then -b else b), g)

/-- The number nearest to `mantissa * 2 ^ exponent`. -/
def ofProduct (negative : Bool) (mantissa : Nat) (exponent : Int) : Binary64 :=
  ofRatio negative (mantissa * Nat.pow 2 exponent.toNat) (Nat.pow 2 (-exponent).toNat)

/-- The sum of two numbers. -/
def add : Binary64 → Binary64 → Binary64
  | nan, _ => nan
  | _, nan => nan
  | infinite s, infinite t => if s = t then infinite s else nan
  | infinite s, finite .. => infinite s
  | finite .., infinite t => infinite t
  | finite s m e, finite t n f =>
    let (sum, g) := exactSum s m e t n f
    if sum = 0 then zero (s && t) else ofProduct (decide (sum < 0)) sum.natAbs g

/-- The product of two numbers. -/
def mul : Binary64 → Binary64 → Binary64
  | nan, _ => nan
  | _, nan => nan
  | infinite s, infinite t => infinite (s != t)
  | infinite s, finite t n _ => if n = 0 then nan else infinite (s != t)
  | finite s m _, infinite t => if m = 0 then nan else infinite (s != t)
  | finite s m e, finite t n f => ofProduct (s != t) (m * n) (e + f)

/-- Whether the number is a zero of either sign. -/
def isZero : Binary64 → Bool
  | finite _ m _ => m == 0
  | _ => false

/-- The number without its fractional part, when it is finite. -/
def truncate? : Binary64 → Option Int
  | finite s m e =>
    let n : Int := (m * Nat.pow 2 e.toNat / Nat.pow 2 (-e).toNat : Nat)
    some (if s then -n else n)
  | _ => none

/-- Whether the number is exactly the integer `n`. -/
def equalsInt (n : Int) : Binary64 → Bool
  | finite s m e =>
    decide (((m * Nat.pow 2 e.toNat : Nat) : Int) * (if s then -1 else 1) =
      n * (Nat.pow 2 (-e).toNat : Nat))
  | _ => false

/-- Equality of numbers: the two zeros are equal, and nothing equals `nan`. -/
def equals : Binary64 → Binary64 → Bool
  | nan, _ => false
  | _, nan => false
  | x, y => (x.isZero && y.isZero) || x == y

end Binary64

end SchemaAudit
