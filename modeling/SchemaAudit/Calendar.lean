import SchemaAudit.Text.Basic

/-!
# Dates and moments

A document can hold a day of the calendar, and a time on such a day, with or without its offset
from universal time. `Date.make?` and `Moment.make?` accept exactly the possible ones.
-/

namespace SchemaAudit

/-- A day of the calendar. -/
structure Date where
  year : Nat
  month : Nat
  day : Nat
  deriving DecidableEq, Repr

/-- A time on a day, with the offset from universal time in seconds where it is known. -/
structure Moment where
  date : Date
  hour : Nat
  minute : Nat
  second : Nat
  microsecond : Nat
  offset : Option Int
  deriving DecidableEq, Repr

/-- A year with a 29th of February. -/
def isLeapYear (year : Nat) : Bool :=
  year % 4 == 0 && (year % 100 != 0 || year % 400 == 0)

/-- The number of days of a month. -/
def daysInMonth (year month : Nat) : Nat :=
  if month = 2 then (if isLeapYear year then 29 else 28)
  else if month = 4 ∨ month = 6 ∨ month = 9 ∨ month = 11 then 30 else 31

namespace Date

/-- The day with the given numbers, if the calendar has it. Years run from 1 to 9999. -/
def make? (year month day : Nat) : Option Date :=
  if 1 ≤ year ∧ year ≤ 9999 ∧ 1 ≤ month ∧ month ≤ 12 ∧ 1 ≤ day ∧ day ≤ daysInMonth year month then
    some ⟨year, month, day⟩
  else none

/-- Year, month and day joined with hyphens. -/
def display (d : Date) : List Char :=
  Text.decimalPadded 4 d.year ++ '-' :: Text.decimalPadded 2 d.month ++
    '-' :: Text.decimalPadded 2 d.day

/-- The number of days since the first day of the calendar. -/
def ordinal (d : Date) : Nat :=
  let y := d.year - 1
  let before := y * 365 + y / 4 - y / 100 + y / 400
  let months := (List.range (d.month - 1)).map (fun m => daysInMonth d.year (m + 1))
  before + months.foldl (· + ·) 0 + (d.day - 1)

end Date

namespace Moment

/-- The moment with the given numbers, if a clock shows it and its offset is less than a day. -/
def make? (date : Date) (hour minute second microsecond : Nat) (offset : Option Int) :
    Option Moment :=
  let offsetFits : Bool :=
    match offset with
    | none => true
    | some s => decide (s.natAbs < 86400)
  if hour < 24 ∧ minute < 60 ∧ second < 60 ∧ offsetFits then
    some ⟨date, hour, minute, second, microsecond, offset⟩
  else none

/-- An offset as sign, hours and minutes, and seconds when there are any. -/
def displayOffset (offset : Int) : List Char :=
  let s := offset.natAbs
  let seconds := if s % 60 = 0 then [] else ':' :: Text.decimalPadded 2 (s % 60)
  (if offset < 0 then '-' else '+') :: Text.decimalPadded 2 (s / 3600) ++
    ':' :: Text.decimalPadded 2 (s / 60 % 60) ++ seconds

/-- The day, a space, the time with its microseconds when there are any, and the offset. -/
def display (m : Moment) : List Char :=
  let micro := if m.microsecond = 0 then [] else '.' :: Text.decimalPadded 6 m.microsecond
  let zone :=
    match m.offset with
    | none => []
    | some s => displayOffset s
  m.date.display ++ ' ' :: Text.decimalPadded 2 m.hour ++ ':' :: Text.decimalPadded 2 m.minute ++
    ':' :: Text.decimalPadded 2 m.second ++ micro ++ zone

/-- The microseconds from the first day of the calendar to the moment, by the clock that shows
it. -/
def clock (m : Moment) : Int :=
  (((m.date.ordinal * 24 + m.hour) * 60 + m.minute) * 60 + m.second : Nat) * 1000000 + m.microsecond

/-- Moments with offsets are the same when they are the same instant; moments without offsets when
their clocks show the same. -/
def same (a b : Moment) : Bool :=
  match a.offset, b.offset with
  | none, none => a.clock == b.clock
  | some s, some t => a.clock - s * 1000000 == b.clock - t * 1000000
  | _, _ => false

end Moment

end SchemaAudit
