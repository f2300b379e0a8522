import SchemaAudit.Text.Blank
import SchemaAudit.Text.Case

/-!
# Data types

Each database has types of its own, so a column has the definition of its type as it was written,
and beside it the broad class that `DataType.classify` reads off the definition: the parameters in
parentheses are dropped, and the first of the fragments in `DataType.fragments` that occurs in the
rest decides.
-/

namespace SchemaAudit

/-- The broad class of a column's type. -/
inductive DataType where
  | integer
  | numeric
  | float
  | boolean
  | date
  | datetime
  | time
  | interval
  | string
  | unicode
  | text
  | unicodeText
  | binary
  | largeBinary
  | unknown
  deriving DecidableEq, Repr

namespace DataType

/-- All classes. -/
def all : List DataType :=
  [integer, numeric, float, boolean, date, datetime, time, interval, string, unicode, text,
    unicodeText, binary, largeBinary, unknown]

/-- The name of a class in documents. -/
def label : DataType → String
  | integer => "integer"
  | numeric => "numeric"
  | float => "float"
  | boolean => "boolean"
  | date => "date"
  | datetime => "datetime"
  | time => "time"
  | interval => "interval"
  | string => "string"
  | unicode => "unicode"
  | text => "text"
  | unicodeText => "unicode_text"
  | binary => "binary"
  | largeBinary => "large_binary"
  | unknown => "unknown"

/-- The class with the given name. -/
def ofLabel? (name : String) : Option DataType :=
  all.find? (·.label == name)

/-- Fragments of type names and the classes they stand for. Of two fragments that occur in a name,
the earlier one decides. -/
def fragments : List (String × DataType) :=
  [("interval", interval), ("point", unknown), ("int", integer), ("serial", integer),
    ("bool", boolean), ("bit", boolean), ("decimal", numeric), ("numeric", numeric),
    ("money", numeric), ("double", float), ("float", float), ("real", float),
    ("datetime", datetime), ("timestamp", datetime), ("date", date), ("time", time),
    ("nchar", unicode), ("nvarchar", unicode), ("ntext", unicodeText), ("clob", text),
    ("text", text), ("char", string), ("string", string), ("uuid", string),
    ("blob", largeBinary), ("bytea", largeBinary), ("binary", binary)]

/-- A line without what stands between its first opening and its last closing parenthesis, and
without these two. A line whose parentheses are not in this order is left as it is. -/
def dropParameters (line : List Char) : List Char :=
  let rest := line.dropWhile (· ≠ '(')
  if rest.contains ')' then
    line.takeWhile (· ≠ '(') ++ (rest.reverse.takeWhile (· ≠ ')')).reverse
  else line

/-- The name that a type definition has besides its parameters, in small letters. -/
def baseName (definition : List Char) : List Char :=
  let lines := (Text.splitWhere (· == '\n') definition).map dropParameters
  Text.lower (Text.strip (Text.joinWith ['\n'] lines))

/-- The class of a type definition. -/
def classify (definition : String) : DataType :=
  let name := baseName definition.toList
  match fragments.find? (fun f => Text.occursIn f.1.toList name) with
  | some f => f.2
  | none => unknown

end DataType

end SchemaAudit
