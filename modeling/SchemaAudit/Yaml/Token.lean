import SchemaAudit.Yaml.Scalar

/-!
# Tokens of a YAML text

The structure that indentation shows becomes explicit: a block opens with a token of its own and
closes with `blockEnd`. A key is known as such only when the colon behind it is met, so a `Lexer`
remembers the places where a key may have started, and puts the token `key` there later. A quoted
scalar can name a character that does not exist; reading ends there with the token `unreadable`, so
that a fault in the order of the tokens before it comes first.
-/

namespace SchemaAudit.Yaml

/-- The parts of a text without its layout. -/
inductive Token where
  | documentStart
  | documentEnd
  | sequenceStart
  | mappingStart
  | blockEnd
  | entry
  | key
  | value
  | openBracket
  | closeBracket
  | openBrace
  | closeBrace
  | comma
  /-- A scalar, and whether it is written plainly. -/
  | scalar (isPlain : Bool) (text : List Char)
  /-- A scalar that has no value, behind which nothing is read. -/
  | unreadable (fault : Fault)
  deriving DecidableEq, Repr

/-- A place where a key may have started. -/
structure PossibleKey where
  /-- The number of tokens before it. -/
  number : Nat
  /-- Whether nothing but a key can stand there. -/
  required : Bool
  index : Nat
  line : Nat
  column : Nat
  deriving DecidableEq, Repr

/-- The state between two tokens. -/
structure Lexer where
  place : Place
  /-- The number of brackets and braces that are open. -/
  depth : Nat := 0
  /-- The columns of the open blocks, the innermost first. -/
  indents : List Nat := []
  /-- Whether a key may start here. -/
  keyAllowed : Bool := true
  /-- The places where keys may have started, with the depth of each. -/
  keys : List (Nat × PossibleKey) := []
  /-- The tokens so far, the last one first. -/
  tokens : List Token := []
  deriving DecidableEq, Repr

namespace Lexer

/-- The column of the innermost block, before all columns outside of every block. -/
def indent (s : Lexer) : Int :=
  match s.indents with
  | [] => -1
  | n :: _ => n

/-- Adds a token. -/
def emit (t : Token) (s : Lexer) : Lexer :=
  { s with tokens := t :: s.tokens }

/-- Goes some characters on. -/
def forward (n : Nat) (s : Lexer) : Lexer :=
  { s with place := s.place.advance n }

/-- Puts a token behind the first `number` ones. -/
def emitAt (number : Nat) (t : Token) (s : Lexer) : Lexer :=
  let newer := s.tokens.length - number
  { s with tokens := s.tokens.take newer ++ t :: s.tokens.drop newer }

/-- Forgets the possible key at the present depth. One that is required cannot be forgotten. -/
def dropKey (s : Lexer) : Except Fault Lexer :=
  match s.keys.lookup s.depth with
  | none => .ok s
  | some k =>
    if k.required then .error .malformed
    else .ok { s with keys := s.keys.filter (·.1 != s.depth) }

/-- Remembers that a key may start here. Outside of brackets it is required at the column of the
innermost block. -/
def saveKey (s : Lexer) : Except Fault Lexer :=
  if s.keyAllowed then do
    let required := s.depth == 0 && s.indent == s.place.column
    let key : PossibleKey :=
      ⟨s.tokens.length, required, s.place.index, s.place.line, s.place.column⟩
    let s ← s.dropKey
    .ok { s with keys := (s.depth, key) :: s.keys }
  else .ok s

/-- Whether a possible key can no longer become one: a key stands on one line, and has at most 1024
characters. -/
def isStale (s : Lexer) (k : PossibleKey) : Bool :=
  k.line != s.place.line || decide (1024 < s.place.index - k.index)

/-- Forgets the possible keys that can no longer become keys. -/
def dropStaleKeys (s : Lexer) : Except Fault Lexer :=
  if s.keys.any fun k => s.isStale k.2 && k.2.required then .error .malformed
  else .ok { s with keys := s.keys.filter fun k => !s.isStale k.2 }

/-- The number of tokens before the first place where a key may still have started. No later
character changes these tokens. -/
def settled (s : Lexer) : Nat :=
  ((s.keys.filter fun k => !s.isStale k.2).map (·.2.number)).foldl min s.tokens.length

/-- Closes blocks, given their columns, until the innermost one is not right of the column. -/
def closeBlocks (column : Int) : List Nat → List Token → List Nat × List Token
  | [], ts => ([], ts)
  | n :: ns, ts =>
    if column < (n : Int) then closeBlocks column ns (.blockEnd :: ts) else (n :: ns, ts)

/-- Closes the blocks that end before the column. Inside brackets indentation means nothing. -/
def unwind (column : Int) (s : Lexer) : Lexer :=
  if s.depth == 0 then
    let (indents, tokens) := closeBlocks column s.indents s.tokens
    { s with indents, tokens }
  else s

/-- The number of characters before the next token, and whether a line ends among them. -/
def gapLength (inComment : Bool) : List Char → Nat × Bool
  | [] => (0, false)
  | c :: cs =>
    if isBreak c then ((gapLength false cs).1 + 1, true)
    else if inComment || c = ' ' then ((gapLength inComment cs).1 + 1, (gapLength inComment cs).2)
    else if c = '#' then ((gapLength true cs).1 + 1, (gapLength true cs).2)
    else (0, false)

/-- Goes on to the next token. Behind a line end a key may start. -/
def skipGap (s : Lexer) : Lexer :=
  let (n, passedBreak) := gapLength false s.place.rest
  let s := s.forward n
  if passedBreak && s.depth == 0 then { s with keyAllowed := true } else s

/-! ### Tokens of one character -/

/-- The mark at the start or end of a document. -/
def documentMark (t : Token) (s : Lexer) : Except Fault Lexer := do
  let s ← (s.unwind (-1)).dropKey
  .ok ({ s with keyAllowed := false }.forward 3 |>.emit t)

/-- An opening bracket or brace. -/
def opening (t : Token) (s : Lexer) : Except Fault Lexer := do
  let s ← s.saveKey
  .ok ({ s with depth := s.depth + 1, keyAllowed := true }.forward 1 |>.emit t)

/-- A closing bracket or brace. -/
def closing (t : Token) (s : Lexer) : Except Fault Lexer := do
  let s ← s.dropKey
  match s.depth with
  | 0 => .error .malformed
  | depth + 1 => .ok ({ s with depth, keyAllowed := false }.forward 1 |>.emit t)

/-- A comma. -/
def comma (s : Lexer) : Except Fault Lexer := do
  let s ← s.dropKey
  .ok ({ s with keyAllowed := true }.forward 1 |>.emit .comma)

/-- Opens a block at a column, unless the innermost one stands there already. -/
def openBlock (column : Nat) (number : Nat) (t : Token) (s : Lexer) : Lexer :=
  if s.indent < column then { s with indents := column :: s.indents }.emitAt number t else s

/-- An indicator that starts an item of a block, where a key may start: the hyphen of a sequence,
or the question mark of a long key. -/
def item (block t : Token) (s : Lexer) : Except Fault Lexer := do
  let s ←
    if s.depth != 0 then .ok s
    else if s.keyAllowed then .ok (s.openBlock s.place.column s.tokens.length block)
    else .error .malformed
  let s ← s.dropKey
  .ok ({ s with keyAllowed := t == Token.entry || s.depth == 0 }.forward 1 |>.emit t)

/-- A colon. A possible key at this depth becomes one; without one the colon may stand only where a
key may start. -/
def colon (s : Lexer) : Except Fault Lexer :=
  match s.keys.lookup s.depth with
  | some k =>
    let s := { s with keys := s.keys.filter (·.1 != s.depth), keyAllowed := false }
    let s := s.emitAt k.number .key
    let s := if s.depth == 0 then s.openBlock k.column k.number .mappingStart else s
    .ok (s.forward 1 |>.emit .value)
  | none =>
    if s.depth == 0 then
      if s.keyAllowed then
        .ok (s.openBlock s.place.column s.tokens.length .mappingStart |>.forward 1 |>.emit .value)
      else .error .malformed
    else .ok ({ s with keyAllowed := false }.forward 1 |>.emit .value)

/-! ### Scalars -/

/-- A scalar that was read from the present place. -/
def scanned (isPlain : Bool) (r : Scanned) (s : Lexer) : Lexer :=
  { s with place := s.place.at r.rest }.emit (.scalar isPlain r.value)

/-- A quoted scalar. -/
def quoted (quote : Char) (s : Lexer) : Except Fault Lexer := do
  let s ← s.saveKey
  let r ← quotedScalar quote s.place.rest.tail
  .ok ({ s with keyAllowed := false }.scanned false r)

/-- A block scalar. -/
def block (folded : Bool) (s : Lexer) : Except Fault Lexer := do
  let s ← s.dropKey
  let r ← blockScalar folded s.indent s.place.rest.tail
  .ok ({ s with keyAllowed := true }.scanned false r)

/-- A plain scalar. Behind a line end at its end a key may start. -/
def plain (s : Lexer) : Except Fault Lexer := do
  let s ← s.saveKey
  let r := plainScalar (s.depth != 0) (s.indent + 1).toNat s.place.rest
  .ok ({ s with keyAllowed := r.passedBreak }.scanned true r)

/-- Whether a plain scalar can start with the character that `next` follows. -/
def startsPlain (inFlow : Bool) (c : Char) (next : List Char) : Bool :=
  if c = '-' then !atGap next
  else if c = '?' ∨ c = ':' then !inFlow && !atGap next
  else !(isGap c || isBreak c ||
    [',', '[', ']', '\x7b', '\x7d', '#', '&', '*', '!', '|', '>', '\x27', '\x22', '%', '@',
      '\x60'].contains c)

/-! ### The whole text -/

/-- The token that starts with the character that `next` follows. -/
def token (c : Char) (next : List Char) (s : Lexer) : Except Fault Lexer :=
  let inFlow := s.depth != 0
  if s.place.column == 0 && isMarker (c :: next) then
    s.documentMark (if c = '-' then .documentStart else .documentEnd)
  else if c = '[' then s.opening .openBracket
  else if c = '\x7b' then s.opening .openBrace
  else if c = ']' then s.closing .closeBracket
  else if c = '\x7d' then s.closing .closeBrace
  else if c = ',' then s.comma
  else if c = '-' && atGap next then s.item .sequenceStart .entry
  else if c = '?' && (inFlow || atGap next) then s.item .mappingStart .key
  else if c = ':' && (inFlow || atGap next) then s.colon
  else if c = '|' && !inFlow then s.block false
  else if c = '>' && !inFlow then s.block true
  else if c = '\x27' || c = '\x22' then s.quoted c
  else if startsPlain inFlow c next then s.plain
  else .error .malformed

/-- The tokens before a place where reading goes no further. A text that does not follow the grammar
there has none; otherwise they are those that are settled there, and the fault. -/
def stop (s : Lexer) (f : Fault) : Except Fault (List Token) :=
  if f = .malformed then .error .malformed
  else .ok (s.tokens.reverse.take s.settled ++ [.unreadable f])

/-- At most `limit` tokens up to the end of the text, in order. Every token takes a character. -/
def run : (limit : Nat) → Lexer → Except Fault (List Token)
  | 0, _ => .error .malformed
  | limit + 1, s => do
    let start ← s.skipGap.dropStaleKeys
    match start.place.rest with
    | [] => do
      let finish ← (start.unwind (-1)).dropKey
      .ok finish.tokens.reverse
    | c :: next =>
      match (start.unwind start.place.column).token c next with
      | .ok t => run limit t
      | .error f => s.stop f

end Lexer

/-- The tokens of a text. Anchors, tags and directives are not read. -/
def tokens (cs : List Char) : Except Fault (List Token) :=
  Lexer.run (cs.length + 1) { place := { rest := cs } }

end SchemaAudit.Yaml
