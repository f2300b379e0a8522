import SchemaAudit.Text.Basic

/-!
# Lines of a YAML text

Which characters a text may hold, which of them end a line, and the places of a text as the grammar
counts them (`Place`): lines, and columns inside a line.
-/

namespace SchemaAudit.Yaml

/-- The code points that a text may hold: the printable ones, tab and line ends. -/
def allowedRanges : List Text.CodeRange :=
  [(0x09, 0x0a), (0x0d, 0x0d), (0x20, 0x7e), (0x85, 0x85), (0xa0, 0xd7ff), (0xe000, 0xfffd),
    (0x10000, 0x10ffff)]

/-- Whether all characters of a text are allowed. -/
def isAllowed (cs : List Char) : Bool :=
  cs.all (Text.inRanges allowedRanges)

/-- The text with a line feed in the place of each carriage return, and of each pair of the two. -/
def normalizeLineEnds : List Char → List Char
  | [] => []
  | '\r' :: '\n' :: cs => '\n' :: normalizeLineEnds cs
  | '\r' :: cs => '\n' :: normalizeLineEnds cs
  | c :: cs => c :: normalizeLineEnds cs

/-- The mark that can stand before a text, and takes no room in its line. -/
def byteOrderMark : Char := '\ufeff'

/-- Whether a character ends a line. -/
def isBreak (c : Char) : Bool :=
  c = '\n' || c = '\u0085' || c = '\u2028' || c = '\u2029'

/-- A line end inside a value. The next-line control counts as a line feed. -/
def breakValue (c : Char) : Char :=
  if c = '\u0085' then '\n' else c

/-- A blank inside a line. -/
def isGap (c : Char) : Bool :=
  c = ' ' || c = '\t'

/-- Whether nothing, a blank or a line end comes next. -/
def atGap : List Char → Bool
  | [] => true
  | c :: _ => isGap c || isBreak c

/-- Whether a line starts with one of the marks around a document. -/
def isMarker : List Char → Bool
  | '-' :: '-' :: '-' :: cs => atGap cs
  | '.' :: '.' :: '.' :: cs => atGap cs
  | _ => false

/-- A place in a text: what comes next, the number of characters before it, and the line and column.
-/
structure Place where
  rest : List Char
  index : Nat := 0
  line : Nat := 0
  column : Nat := 0
  deriving DecidableEq, Repr

/-- The place some characters further on. -/
def Place.advance : Nat → Place → Place
  | 0, p => p
  | n + 1, p =>
    match p.rest with
    | [] => p
    | c :: cs =>
      if isBreak c then advance n ⟨cs, p.index + 1, p.line + 1, 0⟩
      else if c = byteOrderMark then advance n ⟨cs, p.index + 1, p.line, p.column⟩
      else advance n ⟨cs, p.index + 1, p.line, p.column + 1⟩

/-- The place at which the given characters come next, which end the text of `p`. -/
def Place.at (p : Place) (rest : List Char) : Place :=
  p.advance (p.rest.length - rest.length)

end SchemaAudit.Yaml
