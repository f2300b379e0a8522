import SchemaAudit.Doc.Basic
import SchemaAudit.Doc.Reading
import SchemaAudit.Number.Integer
import SchemaAudit.Text.Blank

/-!
# Values of plain scalars

A plain scalar is null, a truth value, an integer, a floating-point number, a date or a moment where
it is written like one, and a text otherwise. `plainValue` decides; a scalar that is written like a
number or a date that does not exist has no value.
-/

namespace SchemaAudit.Yaml

/-- The spellings of null. -/
def nullWords : List String :=
  ["", "~", "null", "Null", "NULL"]

/-- The spellings of the truth values. -/
def boolWords : List (String × Bool) :=
  [("yes", true), ("Yes", true), ("YES", true), ("no", false), ("No", false), ("NO", false),
    ("true", true), ("True", true), ("TRUE", true), ("false", false), ("False", false),
    ("FALSE", false), ("on", true), ("On", true), ("ON", true), ("off", false), ("Off", false),
    ("OFF", false)]

/-- The scalars that stand for a relation to other mappings, and have no value of their own. -/
def reservedWords : List String :=
  ["=", "<<"]

/-! ### Digits -/

/-- Whether a text is not empty and all its characters are digits below a base or underscores. -/
def isNumeral (base : Nat) (cs : List Char) : Bool :=
  !cs.isEmpty && cs.all fun c => c = '_' || (Text.hexDigit? c).any (· < base)

/-- The number that digits denote; underscores are passed over. -/
def numeral (base : Nat) (cs : List Char) : Nat :=
  Text.ofDigits base (cs.filterMap Text.hexDigit?)

/-- The number of digits. -/
def digitCount (cs : List Char) : Nat :=
  (cs.filter (· != '_')).length

/-- Whether a text starts with a decimal digit, and goes on with digits and underscores. -/
def startsWithDigit (cs : List Char) : Bool :=
  (cs.head?.bind Text.asciiDigit?).isSome && isNumeral 10 cs

/-- Whether a text starts with a decimal digit other than zero, and goes on with digits and
underscores. -/
def startsWithPositive (cs : List Char) : Bool :=
  startsWithDigit cs && cs.head? != some '0'

/-- Whether a text is one of the places behind the first one of a number to the base sixty: one or
two digits, below sixty. -/
def isSixtieth : List Char → Bool
  | [d] => (Text.asciiDigit? d).isSome
  | [c, d] => (Text.asciiDigit? c).any (· < 6) && (Text.asciiDigit? d).isSome
  | _ => false

/-! ### Integers -/

/-- A decimal integer, unless it has too many digits. -/
def decimal (cs : List Char) : Except Fault Int :=
  if Number.digitLimit < digitCount cs then .error .impossible else .ok (numeral 10 cs)

/-- The integer of the places of a number to the base sixty. -/
def sexagesimal (places : List (List Char)) : Except Fault Int := do
  let ds ← places.mapM decimal
  .ok (ds.foldl (fun n d => n * 60 + d) 0)

/-- The integer that a text without sign is written like, if it is written like one. -/
def unsigned? (cs : List Char) : Option (Except Fault Int) :=
  match cs with
  | ['0'] => some (.ok 0)
  | '0' :: 'b' :: ds =>
    if isNumeral 2 ds then
      some (if digitCount ds = 0 then .error .impossible else .ok (numeral 2 ds))
    else none
  | '0' :: 'x' :: ds =>
    if isNumeral 16 ds then
      some (if digitCount ds = 0 then .error .impossible else .ok (numeral 16 ds))
    else none
  | '0' :: ds => if isNumeral 8 ds then some (.ok (numeral 8 ds)) else none
  | cs =>
    if startsWithPositive cs then some (decimal cs)
    else
      match Text.splitWhere (· == ':') cs with
      | first :: places =>
        if startsWithPositive first && !places.isEmpty && places.all isSixtieth then
          some (sexagesimal (first :: places))
        else none
      | [] => none

/-- The integer that a text is written like, if it is written like one. -/
def integer? (cs : List Char) : Option (Except Fault Doc) :=
  let (negative, body) := Number.takeSign cs
  (unsigned? body).map fun r => r.map fun n => .int (if negative then -n else n)

/-! ### Floating-point numbers -/

/-- The exponent of ten behind the digits of a number: a letter, a sign and digits. -/
def exponent? : List Char → Option Int
  | [] => some 0
  | e :: sign :: ds =>
    if (e = 'e' ∨ e = 'E') ∧ (sign = '+' ∨ sign = '-') ∧ !ds.isEmpty ∧
        ds.all (fun c => (Text.asciiDigit? c).isSome) then
      let n : Int := numeral 10 ds
      some (if sign = '-' then -n else n)
    else none
  | _ => none

/-- The number with the given digits before and behind its point. -/
def pointed (whole fraction : List Char) (exponent : Int) : Binary64 :=
  .ofDecimal false (numeral 10 (whole ++ fraction)) (exponent - digitCount fraction)

/-- The sum of the places of a number to the base sixty, the last one first, each multiplied by its
weight. A weight beyond all numbers is refused. -/
def sumPlaces (weight : Nat) (sum : Binary64) : List Binary64 → Except Fault Binary64
  | [] => .ok sum
  | x :: xs =>
    match Binary64.ofInt weight with
    | .infinite _ => .error .tooLarge
    | w => sumPlaces (weight * 60) (sum.add (x.mul w)) xs

/-- The number that a text without sign is written like, if it is written like one: with a point
behind digits, or behind the places of a number to the base sixty. A text without digits before its
point is no number behind a sign. -/
def unsignedFloat? (hasSign : Bool) (cs : List Char) : Option (Except Fault Binary64) :=
  let whole := cs.takeWhile (· ≠ '.')
  match cs.dropWhile (· ≠ '.') with
  | [] => none
  | _ :: rest =>
    let fraction := rest.takeWhile fun c => c = '_' || (Text.asciiDigit? c).isSome
    let behind := rest.drop fraction.length
    if whole.isEmpty then
      if startsWithDigit fraction && !hasSign then
        (exponent? behind).map fun e => .ok (pointed [] fraction e)
      else none
    else if startsWithDigit whole then
      (exponent? behind).map fun e => .ok (pointed whole fraction e)
    else
      match Text.splitWhere (· == ':') whole with
      | first :: places =>
        if startsWithDigit first && !places.isEmpty && places.all isSixtieth && behind.isEmpty then
          let (last, others) := ((first :: places).getLastD [], (first :: places).dropLast)
          let numbers := pointed last fraction 0 :: others.reverse.map (pointed · [] 0)
          some (sumPlaces 1 (Binary64.zero false) numbers)
        else none
      | [] => none

/-- The spellings of infinity. -/
def infinityWords : List String :=
  [".inf", ".Inf", ".INF"]

/-- The spellings of what is not a number. -/
def nanWords : List String :=
  [".nan", ".NaN", ".NAN"]

/-- The floating-point number that a text is written like, if it is written like one. -/
def float? (cs : List Char) : Option (Except Fault Doc) :=
  let (negative, body) := Number.takeSign cs
  if nanWords.contains (String.ofList cs) then some (.ok (.float .nan))
  else if infinityWords.contains (String.ofList body) then
    some (.ok (.float (.infinite negative)))
  else
    (unsignedFloat? (body.length != cs.length) body).map fun r =>
      r.map fun x => .float (if negative then x.neg else x)

/-! ### Dates and moments -/

/-- From `least` to `most` decimal digits at the start of a text, and the text behind them. -/
def takeDigits (least most : Nat) (cs : List Char) : Option (Nat × List Char) :=
  let ds := (cs.take most).takeWhile fun c => (Text.asciiDigit? c).isSome
  if least ≤ ds.length then some (numeral 10 ds, cs.drop ds.length) else none

/-- The text behind a character that it starts with. -/
def takeChar (c : Char) : List Char → Option (List Char)
  | d :: cs => if d = c then some cs else none
  | [] => none

/-- The text behind the separator of day and time: a letter, or blanks. -/
def takeTimeSeparator : List Char → Option (List Char)
  | c :: cs =>
    if c = 'T' ∨ c = 't' then some cs
    else if c = ' ' ∨ c = '\t' then some (cs.dropWhile fun d => d = ' ' || d = '\t')
    else none
  | [] => none

/-- The offset from universal time that a text is, in seconds. -/
def offset? : List Char → Option (Option Int)
  | [] => some none
  | ['Z'] => some (some 0)
  | sign :: cs =>
    if sign = '+' ∨ sign = '-' then do
      let (hours, rest) ← takeDigits 1 2 cs
      let minutes ←
        match rest with
        | [] => some 0
        | _ => do
          let rest ← takeChar ':' rest
          let (n, rest) ← takeDigits 2 2 rest
          if rest.isEmpty then some n else none
      let seconds : Int := hours * 3600 + minutes * 60
      some (some (if sign = '-' then -seconds else seconds))
    else none

/-- The microseconds of a fraction of a second, of which six digits count. -/
def microseconds (fraction : List Char) : Nat :=
  numeral 10 (fraction.take 6 ++ List.replicate (6 - fraction.length) '0')

/-- The time of a day that a text is: hours, minutes, seconds, microseconds and offset. -/
def time? (cs : List Char) : Option (Nat × Nat × Nat × Nat × Option Int) := do
  let (hour, cs) ← takeDigits 1 2 cs
  let (minute, cs) ← takeDigits 2 2 (← takeChar ':' cs)
  let (second, cs) ← takeDigits 2 2 (← takeChar ':' cs)
  let fraction :=
    match cs with
    | '.' :: rest => rest.takeWhile fun c => (Text.asciiDigit? c).isSome
    | _ => []
  let behind :=
    match cs with
    | '.' :: rest => rest.dropWhile fun c => (Text.asciiDigit? c).isSome
    | _ => cs
  let zone := behind.dropWhile fun c => c = ' ' || c = '\t'
  if zone.isEmpty && !behind.isEmpty then none
  else do
    let offset ← offset? zone
    some (hour, minute, second, microseconds fraction, offset)

/-- A value that the calendar or the clock must have. -/
def possible {α : Type} : Option α → Except Fault α
  | some a => .ok a
  | none => .error .impossible

/-- The date or moment that a text is written like, if it is written like one. A date alone has two
digits for month and day. -/
def timestamp? (cs : List Char) : Option (Except Fault Doc) := do
  let (year, rest) ← takeDigits 4 4 cs
  let (month, rest) ← takeDigits 1 2 (← takeChar '-' rest)
  let (day, rest) ← takeDigits 1 2 (← takeChar '-' rest)
  match rest with
  | [] => if cs.length = 10 then some ((possible (Date.make? year month day)).map .date) else none
  | _ => do
    let (hour, minute, second, micro, offset) ← time? (← takeTimeSeparator rest)
    some do
      let date ← possible (Date.make? year month day)
      let moment ← possible (Moment.make? date hour minute second micro offset)
      .ok (.moment moment)

/-! ### All plain scalars -/

/-- The value of a plain scalar. -/
def plainValue (cs : List Char) : Except Fault Doc :=
  let s := String.ofList cs
  if nullWords.contains s then .ok .null
  else if reservedWords.contains s then .error .malformed
  else
    match boolWords.lookup s with
    | some b => .ok (.bool b)
    | none =>
      match integer? cs <|> float? cs <|> timestamp? cs with
      | some r => r
      | none => .ok (.text s)

end SchemaAudit.Yaml
