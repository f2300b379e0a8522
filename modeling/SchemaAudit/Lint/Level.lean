import SchemaAudit.Doc.Basic
import SchemaAudit.Doc.Display
import SchemaAudit.Text.Blank
import SchemaAudit.Text.Case

/-!
# Levels

A message is an information, a warning or an error. `Level.ofDoc` reads a level from a document:
its name, in any letter case and with blanks around it, or its rank.
-/

namespace SchemaAudit

/-- How serious a message is. -/
inductive Level where
  | information
  | warning
  | error
  deriving DecidableEq, Repr

/-- Why a value is no level. -/
inductive LevelFault where
  /-- A value that is neither a name nor a rank. -/
  | unknown (value : Doc)
  /-- A number that is no rank. -/
  | outOfRange (n : Int)
  deriving DecidableEq, Repr

/-- What is wrong with a value that is no level. -/
def LevelFault.message : LevelFault → String
  | unknown value => "Unknown rule level: " ++ value.literal
  | outOfRange n => toString n ++ " is not a valid RuleLevel"

namespace Level

/-- All levels, the least serious first. -/
def all : List Level :=
  [information, warning, error]

/-- The name of a level in capitals. -/
def label : Level → String
  | information => "INFORMATION"
  | warning => "WARNING"
  | error => "ERROR"

/-- The name of a level in small letters. -/
def word : Level → String
  | information => "information"
  | warning => "warning"
  | error => "error"

/-- The rank of a level: the more serious, the higher. -/
def rank : Level → Nat
  | information => 1
  | warning => 2
  | error => 3

/-- Whether a level is as serious as another one, or more. -/
def reaches (l bound : Level) : Bool :=
  decide (bound.rank ≤ l.rank)

/-- The level with the given name in capitals. `INFO` is short for `INFORMATION`. -/
def ofLabel? (name : String) : Option Level :=
  if name == "INFO" then some information else all.find? (·.label == name)

/-- Reads a level: a text by its name, an integer by its rank. -/
def ofDoc : Doc → Except LevelFault Level
  | .text s =>
    match ofLabel? (Text.upperString (Text.stripString s)) with
    | some l => .ok l
    | none => .error (.unknown (.text s))
  | .int n =>
    match all.find? (fun l => (l.rank : Int) == n) with
    | some l => .ok l
    | none => .error (.outOfRange n)
  | d => .error (.unknown d)

end Level

end SchemaAudit
