import SchemaAudit.Doc.Basic
import SchemaAudit.Number.Integer
import SchemaAudit.Number.Shortest
import SchemaAudit.Text.Quoted

/-!
# The texts of documents

`literal` is the form in which a message shows a value, with texts quoted; `display` is the form
that a value takes where a text is wanted, in which a text stands for itself. They differ on texts
and dates alone. A value in which some integer has too many digits to be written has neither
(`isWritable`).
-/

namespace SchemaAudit

/-- A date as a message shows it. -/
def Date.literal (d : Date) : String :=
  "datetime.date(" ++ toString d.year ++ ", " ++ toString d.month ++ ", " ++ toString d.day ++ ")"

/-- An offset as a message shows it: whole days, rounded down, and the seconds left. -/
def Moment.literalOffset (offset : Int) : String :=
  if offset = 0 then "datetime.timezone.utc"
  else
    let days := if offset < 0 then "days=-1, " else ""
    let seconds := if offset < 0 then offset + 86400 else offset
    "datetime.timezone(datetime.timedelta(" ++ days ++ "seconds=" ++ toString seconds ++ "))"

/-- A moment as a message shows it. Seconds and microseconds are left out from the end while they
are zero. -/
def Moment.literal (m : Moment) : String :=
  let seconds :=
    if m.microsecond ≠ 0 then [toString m.second, toString m.microsecond]
    else if m.second ≠ 0 then [toString m.second]
    else []
  let numbers :=
    [toString m.date.year, toString m.date.month, toString m.date.day, toString m.hour,
      toString m.minute] ++ seconds
  let zone :=
    match m.offset with
    | none => ""
    | some s => ", tzinfo=" ++ literalOffset s
  "datetime.datetime(" ++ String.intercalate ", " numbers ++ zone ++ ")"

namespace Doc

mutual

/-- The form in which a message shows a value. -/
def literal : Doc → String
  | .null => "None"
  | .bool b => if b then "True" else "False"
  | .int n => toString n
  | .float x => x.text
  | .text s => Text.quotedString s
  | .date d => d.literal
  | .moment m => m.literal
  | .list items => "[" ++ String.intercalate ", " (literals items) ++ "]"
  | .map es => "\x7b" ++ String.intercalate ", " (literalEntries es) ++ "\x7d"

/-- The literals of several values. -/
def literals : List Doc → List String
  | [] => []
  | d :: ds => literal d :: literals ds

/-- The literals of the entries of a mapping. -/
def literalEntries : List (Doc × Doc) → List String
  | [] => []
  | (k, v) :: es => (literal k ++ ": " ++ literal v) :: literalEntries es

end

/-- The form that a value takes where a text is wanted. -/
def display : Doc → String
  | .text s => s
  | .date d => String.ofList d.display
  | .moment m => String.ofList m.display
  | d => d.literal

mutual

/-- Whether all integers in a value can be written. -/
def isWritable : Doc → Bool
  | .int n => Number.isWritable n
  | .list items => areWritable items
  | .map es => areWritableEntries es
  | _ => true

/-- Whether all integers in several values can be written. -/
def areWritable : List Doc → Bool
  | [] => true
  | d :: ds => isWritable d && areWritable ds

/-- Whether all integers in the entries of a mapping can be written. -/
def areWritableEntries : List (Doc × Doc) → Bool
  | [] => true
  | (k, v) :: es => isWritable k && isWritable v && areWritableEntries es

end

end Doc

end SchemaAudit
