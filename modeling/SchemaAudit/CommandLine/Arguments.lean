import SchemaAudit.Files.Path
import SchemaAudit.Text.Basic

/-!
# Arguments

The words of a command line are an optional wish for more notes, a command, and the options of that
command. Every option has one value, in the same word behind an equals sign or in the next word. An
option can be shortened as long as no other option of the command starts that way, and of an option
that is given more than once the last one counts.

* `Arguments.ofWords?`: reads the words; other words than these are a wrong use.
-/

namespace SchemaAudit.CommandLine

/-- What to do. -/
inductive Command where
  /-- Say what the rules find. -/
  | lint
  /-- Write the tables in DBML. -/
  | dbml
  deriving DecidableEq, Repr

/-- An option of a command. -/
inductive Setting where
  | schemaPath
  | config
  | level
  | failOn
  | output
  deriving DecidableEq, Repr

/-- The name of an option, without the hyphens before it. -/
def Setting.name : Setting → String
  | schemaPath => "schema-path"
  | config => "config"
  | level => "level"
  | failOn => "fail-on"
  | output => "output"

/-- The name of a command. -/
def Command.name : Command → String
  | lint => "lint"
  | dbml => "export"

/-- The options of a command. -/
def Command.settings : Command → List Setting
  | lint => [.schemaPath, .config, .level, .failOn]
  | dbml => [.schemaPath, .config, .output]

/-- A command with the values of its options. -/
structure Arguments where
  command : Command
  verbose : Bool := false
  schemaPath : Option String := none
  config : Option String := none
  level : Option String := none
  failOn : Option String := none
  output : Option String := none
  deriving DecidableEq, Repr

namespace Arguments

/-- The arguments with a value for an option. -/
def set (a : Arguments) (value : String) : Setting → Arguments
  | .schemaPath => { a with schemaPath := some value }
  | .config => { a with config := some value }
  | .level => { a with level := some value }
  | .failOn => { a with failOn := some value }
  | .output => { a with output := some value }

/-! ### Single words -/

/-- The names that a shortened name can stand for. -/
def namesFor (names : List String) (short : List Char) : List String :=
  names.filter fun name => short.isPrefixOf name.toList

/-- The name behind the hyphens of a word, up to an equals sign. -/
def nameOf? : List Char → Option (List Char)
  | '-' :: '-' :: cs => some (cs.takeWhile (· ≠ '='))
  | _ => none

/-- The text behind the first equals sign of a word. -/
def valueOf? (cs : List Char) : Option String :=
  match cs.dropWhile (· ≠ '=') with
  | _ :: value => some (String.ofList value)
  | [] => none

/-- The option that a word names, if it names a single one, and the value in the same word. -/
def settingOf? (c : Command) (word : String) : Option (Setting × Option String) := do
  let short ← nameOf? word.toList
  match c.settings.filter fun s => short.isPrefixOf s.name.toList with
  | [s] => some (s, valueOf? word.toList)
  | _ => none

/-- Whether a character is a decimal digit. -/
def isDigit (c : Char) : Bool :=
  (Text.digit? c).isSome

/-- A text without the line feed at its end, if it has one there. -/
def dropLineFeed (cs : List Char) : List Char :=
  if cs.getLast? = some '\n' then cs.dropLast else cs

/-- Whether a text is written like a number without sign: with digits only, or with digits behind a
point. A line feed at its end is passed over. -/
def isUnsignedNumber (cs : List Char) : Bool :=
  let cs := dropLineFeed cs
  match cs.dropWhile isDigit with
  | [] => !cs.isEmpty
  | c :: fraction => c = '.' && !fraction.isEmpty && fraction.all isDigit

/-- The names of the options that every command has besides its own. -/
def commonNames : List String :=
  ["help"]

/-- Whether a word looks like an option of a command. -/
def looksLikeSetting (c : Command) (cs : List Char) : Bool :=
  match nameOf? cs with
  | some short => !(namesFor (commonNames ++ c.settings.map Setting.name) short).isEmpty
  | none => ['-', 'h'].isPrefixOf cs

/-- Whether a word can be the value of the option before it: it has no hyphen at its start, or it is
only a hyphen, a negative number, or a text with a space that looks like no option. -/
def isValue (c : Command) (word : String) : Bool :=
  match word.toList with
  | '-' :: cs =>
    if cs.isEmpty then true
    else
      !looksLikeSetting c ('-' :: cs) && (isUnsignedNumber cs || cs.contains ' ')
  | _ => true

/-- Whether a word asks for more notes. -/
def asksForNotes (word : String) : Bool :=
  match word.toList with
  | '-' :: '-' :: cs => !cs.isEmpty && cs.isPrefixOf "verbose".toList
  | '-' :: cs => !cs.isEmpty && cs.all (· = 'v')
  | _ => false

/-! ### All words -/

/-- The arguments with the values of the options in the words. -/
def readSettings (a : Arguments) : List String → Option Arguments
  | [] => some a
  | word :: words =>
    match settingOf? a.command word with
    | none => none
    | some (s, some value) => (a.set value s).readSettings words
    | some (s, none) =>
      match words with
      | value :: rest => if isValue a.command value then (a.set value s).readSettings rest else none
      | [] => none

/-- Reads the words of a command line. -/
def ofWords? (words : List String) : Option Arguments :=
  let verbose := !(words.takeWhile asksForNotes).isEmpty
  match words.dropWhile asksForNotes with
  | [] => none
  | word :: rest =>
    match [Command.lint, .dbml].find? (·.name == word) with
    | some command => readSettings { command, verbose } rest
    | none => none

end Arguments

end SchemaAudit.CommandLine
