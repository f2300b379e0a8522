import SchemaAudit.Doc.Reading
import SchemaAudit.Text.Basic
import SchemaAudit.Yaml.Line

/-!
# Scalars

A scalar is written plainly, between quotes, or as a block of lines. The three readers here take
the characters from the start of the scalar, and answer with its value and what comes behind it.
They do not say what the value means.
-/

namespace SchemaAudit.Yaml

/-! ### Plain scalars -/

/-- The characters that structure lists and mappings between brackets and braces. -/
def flowSigns : List Char :=
  [',', '[', ']', '\x7b', '\x7d']

/-- Whether a plain scalar ends before the character `c` that `next` follows. Inside brackets more
characters end it. -/
def endsPlain (inFlow : Bool) (c : Char) (next : List Char) : Bool :=
  isGap c || isBreak c ||
    (c = ':' && (atGap next || (inFlow && next.head?.any flowSigns.contains))) ||
    (inFlow && ('?' :: flowSigns).contains c)

/-- The characters of a plain scalar up to the next blank or end, and what comes behind them. -/
def plainWord (inFlow : Bool) : List Char → List Char × List Char
  | [] => ([], [])
  | c :: cs =>
    if endsPlain inFlow c cs then ([], c :: cs)
    else (c :: (plainWord inFlow cs).1, (plainWord inFlow cs).2)

/-- The line ends before the next character that is neither one nor a space, the column of that
character, and the text from there. -/
def foldedBreaks (column : Nat) : List Char → List Char × Nat × List Char
  | [] => ([], column, [])
  | c :: cs =>
    if c = ' ' then foldedBreaks (column + 1) cs
    else if isBreak c then
      let (breaks, column, rest) := foldedBreaks 0 cs
      (breakValue c :: breaks, column, rest)
    else ([], column, c :: cs)

/-- The value of line ends between two words: a single line feed is a space, and of several the
first one is dropped. -/
def foldBreaks : List Char → List Char
  | [] => []
  | b :: bs => if b ≠ '\n' then b :: bs else if bs.isEmpty then [' '] else bs

/-- What stands between two words of a plain scalar. -/
structure PlainGap where
  value : List Char
  rest : List Char
  /-- Whether the gap holds a line end, and then the column behind it. -/
  newColumn : Option Nat

/-- The gap at the start of a text, if there is one. -/
def plainGap (cs : List Char) : Option PlainGap :=
  let spaces := cs.takeWhile (· = ' ')
  let rest := cs.dropWhile (· = ' ')
  match rest with
  | c :: _ =>
    if isBreak c then
      let (breaks, column, rest) := foldedBreaks 0 rest
      some ⟨foldBreaks breaks, rest, some column⟩
    else if spaces.isEmpty then none
    else some ⟨spaces, rest, none⟩
  | [] => if spaces.isEmpty then none else some ⟨spaces, [], none⟩

/-- Whether a plain scalar goes on behind a gap: not with a comment, nor on a line that is indented
less than the scalar or starts with a mark. -/
def PlainGap.continues (g : PlainGap) (inFlow : Bool) (indent : Nat) : Bool :=
  g.rest.head? != some '#' &&
    match g.newColumn with
    | none => true
    | some column => !(column == 0 && isMarker g.rest) && (inFlow || decide (indent ≤ column))

/-- The value of a scalar, what comes behind it, and whether a line end was passed at its end. -/
structure Scanned where
  value : List Char
  rest : List Char
  passedBreak : Bool := false
  deriving DecidableEq, Repr

/-- At most `limit` words of a plain scalar. -/
def plainWords (inFlow : Bool) (indent : Nat) : (limit : Nat) → List Char → Scanned
  | 0, cs => ⟨[], cs, false⟩
  | limit + 1, cs =>
    let (word, rest) := plainWord inFlow cs
    if word.isEmpty then ⟨[], cs, false⟩
    else
      match plainGap rest with
      | none => ⟨word, rest, false⟩
      | some gap =>
        if gap.continues inFlow indent then
          let more := plainWords inFlow indent limit gap.rest
          if more.value.isEmpty then ⟨word, gap.rest, gap.newColumn.isSome⟩
          else ⟨word ++ gap.value ++ more.value, more.rest, more.passedBreak⟩
        else ⟨word, gap.rest, gap.newColumn.isSome⟩

/-- A plain scalar. Its further lines are indented by `indent` columns or more. -/
def plainScalar (inFlow : Bool) (indent : Nat) (cs : List Char) : Scanned :=
  plainWords inFlow indent cs.length cs

/-! ### Quoted scalars -/

/-- What a character behind a backslash stands for. -/
def escapes : List (Char × Char) :=
  [('0', '\x00'), ('a', '\x07'), ('b', '\x08'), ('t', '\x09'), ('\t', '\x09'), ('n', '\n'),
    ('v', '\x0b'), ('f', '\x0c'), ('r', '\r'), ('e', '\x1b'), (' ', ' '), ('\x22', '\x22'),
    ('\\', '\\'), ('/', '/'), ('N', '\u0085'), ('_', '\u00a0'), ('L', '\u2028'), ('P', '\u2029')]

/-- How many hexadecimal digits follow a character behind a backslash. -/
def escapeWidths : List (Char × Nat) :=
  [('x', 2), ('u', 4), ('U', 8)]

/-- Where the reader of a quoted scalar is. -/
inductive QuoteState where
  /-- Behind a character of the value. -/
  | inText
  /-- Behind blanks. -/
  | inSpaces (spaces : List Char)
  /-- Behind line ends, the first of which is folded. -/
  | inBreaks (breaks : List Char)
  /-- Behind line ends, the first of which was escaped. -/
  | inEscapedBreaks (breaks : List Char)
  /-- Behind a backslash. -/
  | escaped
  /-- Before some more hexadecimal digits of a code point. -/
  | inCode (digits : Nat) (code : Nat)
  deriving DecidableEq, Repr

/-- The value of the blanks and line ends before a character of the value. -/
def QuoteState.pending : QuoteState → List Char
  | inSpaces spaces => spaces
  | inBreaks breaks => foldBreaks breaks
  | inEscapedBreaks breaks => breaks
  | _ => []

/-- The state behind a blank. -/
def QuoteState.addSpace (s : QuoteState) (c : Char) : QuoteState :=
  match s with
  | inBreaks breaks => inBreaks breaks
  | inEscapedBreaks breaks => inEscapedBreaks breaks
  | inSpaces spaces => inSpaces (spaces ++ [c])
  | _ => inSpaces [c]

/-- The state behind a line end. -/
def QuoteState.addBreak (s : QuoteState) (c : Char) : QuoteState :=
  match s with
  | inBreaks breaks => inBreaks (breaks ++ [breakValue c])
  | inEscapedBreaks breaks => inEscapedBreaks (breaks ++ [breakValue c])
  | escaped => inEscapedBreaks []
  | _ => inBreaks [breakValue c]

/-- The fault of a code that is none of a character or of half of one: it is beyond the last code
point, or beyond the numbers that can be asked for. -/
def codeFault? (code : Nat) : Option Fault :=
  if code < 0x110000 then none
  else if code < 0x80000000 then some .impossible
  else some .tooLarge

/-- Whether a code is the first half of a pair that stands for one character. -/
def isFirstHalf (code : Nat) : Bool :=
  decide (0xd800 ≤ code) && decide (code < 0xdc00)

/-- Whether a code is the second half of such a pair. -/
def isSecondHalf (code : Nat) : Bool :=
  decide (0xdc00 ≤ code) && decide (code < 0xe000)

/-- The code of the character that two halves stand for. -/
def joinHalves (first second : Nat) : Nat :=
  0x10000 + (first - 0xd800) * 0x400 + (second - 0xdc00)

/-- The character that stands for half of a pair by itself, which is no character. -/
def strayHalf : Char := '\ufffd'

/-- The characters that codes stand for. -/
def charactersOf : List Nat → List Char
  | [] => []
  | [code] => [if isFirstHalf code || isSecondHalf code then strayHalf else Char.ofNat code]
  | code :: next :: codes =>
    if isFirstHalf code && isSecondHalf next then
      Char.ofNat (joinHalves code next) :: charactersOf codes
    else if isFirstHalf code || isSecondHalf code then strayHalf :: charactersOf (next :: codes)
    else Char.ofNat code :: charactersOf (next :: codes)

/-- The codes of some characters. -/
def codesOf (cs : List Char) : List Nat :=
  cs.map Char.toNat

/-- The codes of a scalar behind its opening quote, and the text behind the closing one. Two single
quotes stand for one. There is no value without the closing quote, with an unknown escape, or with a
mark at the start of a line. -/
def quotedCodes (quote : Char) (s : QuoteState) :
    List Char → Except Fault (List Nat × List Char)
  | [] => .error .malformed
  | c :: cs =>
    let put (codes : List Nat) (r : Except Fault (List Nat × List Char)) :
        Except Fault (List Nat × List Char) :=
      r.map fun x => (codes ++ x.1, x.2)
    match s with
    | .escaped =>
      if isBreak c then
        if isMarker cs then .error .malformed else quotedCodes quote (s.addBreak c) cs
      else
        match escapes.lookup c, escapeWidths.lookup c with
        | some d, _ => put [d.toNat] (quotedCodes quote .inText cs)
        | none, some width => quotedCodes quote (.inCode width 0) cs
        | none, none => .error .malformed
    | .inCode digits code =>
      match Text.hexDigit? c with
      | none => .error .malformed
      | some d =>
        let code := code * 16 + d
        if digits ≤ 1 then
          match codeFault? code with
          | some f => .error f
          | none => put [code] (quotedCodes quote .inText cs)
        else quotedCodes quote (.inCode (digits - 1) code) cs
    | _ =>
      if isGap c then quotedCodes quote (s.addSpace c) cs
      else if isBreak c then
        if isMarker cs then .error .malformed else quotedCodes quote (s.addBreak c) cs
      else if c = '\\' ∧ quote = '\x22' then
        put (codesOf s.pending) (quotedCodes quote .escaped cs)
      else if c = quote then
        match quote, cs with
        | '\x27', '\x27' :: rest =>
          put (codesOf (s.pending ++ ['\x27'])) (quotedCodes quote .inText rest)
        | _, _ => .ok (codesOf s.pending, cs)
      else put (codesOf (s.pending ++ [c])) (quotedCodes quote .inText cs)

/-- A scalar behind its opening quote, up to the closing one. -/
def quotedScalar (quote : Char) (cs : List Char) : Except Fault Scanned :=
  (quotedCodes quote .inText cs).map fun r => ⟨charactersOf r.1, r.2, false⟩

/-! ### Block scalars -/

/-- What happens to the line ends at the end of a block scalar. -/
inductive Chomping where
  | strip
  | clip
  | keep
  deriving DecidableEq, Repr

/-- The signs behind the first one of a block scalar. -/
structure BlockHeader where
  chomping : Chomping := .clip
  increment : Option Nat := none
  deriving DecidableEq, Repr

/-- The sign for the line ends at the end. -/
def chomping? : Char → Option Chomping
  | '+' => some .keep
  | '-' => some .strip
  | _ => none

/-- The digit for the indentation, which is not zero. -/
def increment? (c : Char) : Option Nat :=
  (Text.asciiDigit? c).filter (0 < ·)

/-- The header of a block scalar behind its first sign, and the text behind the signs. -/
def blockHeader (cs : List Char) : BlockHeader × List Char :=
  match cs with
  | c :: cs =>
    match chomping? c, increment? c with
    | some k, _ =>
      match cs.head?.bind increment? with
      | some n => (⟨k, some n⟩, cs.tail)
      | none => (⟨k, none⟩, cs)
    | none, some n =>
      match cs.head?.bind chomping? with
      | some k => (⟨k, some n⟩, cs.tail)
      | none => (⟨.clip, some n⟩, cs)
    | none, none => ({}, c :: cs)
  | [] => ({}, [])

/-- Whether the rest of a header line says nothing: spaces, and a comment behind at least one of
them. -/
def isHeaderEnd (line : List Char) : Bool :=
  match line with
  | [] => true
  | c :: _ =>
    c = ' ' && match line.dropWhile (· = ' ') with
      | [] => true
      | d :: _ => d = '#'

/-- A line of a text, and the character that ends it, if any does. -/
structure BlockLine where
  text : List Char
  ending : Option Char
  deriving DecidableEq, Repr

/-- The lines of a text. There is none behind a line end at the end of the text. -/
def blockLines : List Char → List BlockLine
  | [] => []
  | c :: cs =>
    if isBreak c then ⟨[], some c⟩ :: blockLines cs
    else
      match blockLines cs with
      | [] => [⟨[c], none⟩]
      | l :: ls => ⟨c :: l.text, l.ending⟩ :: ls

/-- The characters of a line with its end. -/
def BlockLine.length (l : BlockLine) : Nat :=
  l.text.length + (if l.ending.isSome then 1 else 0)

/-- The number of spaces at the start of a line. -/
def BlockLine.margin (l : BlockLine) : Nat :=
  (l.text.takeWhile (· = ' ')).length

/-- Whether a line has nothing but spaces, and ends. -/
def BlockLine.isBlank (l : BlockLine) : Bool :=
  l.ending.isSome && l.text.all (· = ' ')

/-- Whether a line is an empty one of a block with the given indentation. -/
def BlockLine.isEmpty (indent : Nat) (l : BlockLine) : Bool :=
  l.isBlank && decide (l.text.length ≤ indent)

/-- Whether a line has text in a block with the given indentation. -/
def BlockLine.hasText (indent : Nat) (l : BlockLine) : Bool :=
  decide (indent ≤ l.margin) && decide (indent < l.text.length)

/-- The indentation that the first lines of a block show: the widest margin among the blank lines at
the start and the first one behind them. -/
def shownIndent : List BlockLine → Nat
  | [] => 0
  | l :: ls => if l.isBlank then max l.text.length (shownIndent ls) else l.margin

/-- What a block scalar has read: the end of the last line with text, and whether this starts with
no blank. -/
structure BlockState where
  last : Option (Option Char × Bool) := none
  /-- The ends of the empty lines since then. -/
  breaks : List Char := []
  deriving DecidableEq, Repr

/-- What stands between a line with text and the next one. In a folded block the end of a line
counts as a space, or as nothing before empty lines, unless one of the two lines starts with a
blank. -/
def BlockState.separator (s : BlockState) (folded : Bool) (nextIsFlush : Bool) : List Char :=
  match s.last with
  | none => s.breaks
  | some (ending, isFlush) =>
    if folded && ending == some '\n' && isFlush && nextIsFlush then
      (if s.breaks.isEmpty then [' '] else []) ++ s.breaks
    else ending.toList ++ s.breaks

/-- What remains of the line ends at the end of a block. -/
def BlockState.tail (s : BlockState) (chomping : Chomping) : List Char :=
  let lastEnd := (s.last.bind (·.1)).toList
  match chomping with
  | .strip => []
  | .clip => lastEnd
  | .keep => lastEnd ++ s.breaks

/-- The value of the lines of a block with the given indentation. -/
def blockValue (folded : Bool) (chomping : Chomping) (indent : Nat) (s : BlockState) :
    List BlockLine → List Char
  | [] => s.tail chomping
  | l :: ls =>
    if l.isEmpty indent then
      let breaks := s.breaks ++ (l.ending.map breakValue).toList
      blockValue folded chomping indent { s with breaks } ls
    else
      let text := l.text.drop indent
      let isFlush := !(text.head?.any isGap)
      s.separator folded isFlush ++ text ++
        blockValue folded chomping indent ⟨some (l.ending.map breakValue, isFlush), []⟩ ls

/-- A block scalar behind its first sign, inside a block with the indentation `outer`. -/
def blockScalar (folded : Bool) (outer : Int) (cs : List Char) : Except Fault Scanned :=
  let (header, rest) := blockHeader cs
  match blockLines rest with
  | [] => .ok ⟨[], [], false⟩
  | first :: lines =>
    if isHeaderEnd first.text then
      let least := max 1 (outer + 1).toNat
      let indent :=
        match header.increment with
        | some n => least + n - 1
        | none => max least (shownIndent lines)
      let body := lines.takeWhile fun l => l.isEmpty indent || l.hasText indent
      let length := body.foldl (fun n l => n + l.length) first.length
      .ok ⟨blockValue folded header.chomping indent {} body, rest.drop length, false⟩
    else .error .malformed

end SchemaAudit.Yaml
