import SchemaAudit.Yaml.Token
import SchemaAudit.Yaml.Value

/-!
# The tree of a YAML text

The tokens of a text form a tree of scalars, lists and mappings (`Node.ofTokens`). The tree has a
value (`Node.toDoc`) unless one of its parts has none (`Node.firstFault?`). With this the reader of
texts is complete, and stands for a library where a run is made without another one.
-/

namespace SchemaAudit.Yaml

/-- A tree of scalars, lists and mappings. -/
inductive Node where
  /-- A scalar, and whether it is written plainly. -/
  | scalar (isPlain : Bool) (text : List Char)
  | list (items : List Node)
  | map (entries : List (Node × Node))
  deriving Repr

namespace Node

/-! ### From tokens -/

/-- A scalar where nothing is written. -/
def empty : Node :=
  .scalar true []

/-- Where a node stands. -/
inductive Position where
  /-- Between brackets or braces. -/
  | inFlow
  /-- In a block. -/
  | inBlock
  /-- As the key or value of a block, where a list needs no indentation. -/
  | inEntry
  deriving DecidableEq, Repr

/-- Whether one of the tokens comes next. -/
def comes (next : List Token) (ts : List Token) : Bool :=
  (ts.head?).any next.contains

/-- The fault of a text in which other tokens are expected than those that come. -/
def unexpected : List Token → Fault
  | .unreadable f :: _ => f
  | _ => .malformed

mutual

/-- A node, and the tokens behind it. -/
def read (p : Position) : (fuel : Nat) → List Token → Except Fault (Node × List Token)
  | 0, _ => .error .malformed
  | fuel + 1, ts =>
    match ts with
    | .scalar isPlain text :: ts => .ok (.scalar isPlain text, ts)
    | .openBracket :: ts => (flowItems true fuel ts).map fun r => (.list r.1, r.2)
    | .openBrace :: ts => (flowEntries true fuel ts).map fun r => (.map r.1, r.2)
    | .sequenceStart :: ts =>
      if p = .inFlow then .error .malformed else (blockItems fuel ts).map fun r => (.list r.1, r.2)
    | .mappingStart :: ts =>
      if p = .inFlow then .error .malformed else (blockEntries fuel ts).map fun r => (.map r.1, r.2)
    | .entry :: ts =>
      if p = .inEntry then (bareItems fuel (.entry :: ts)).map fun r => (.list r.1, r.2)
      else .error .malformed
    | ts => .error (unexpected ts)

/-- A node, or the empty scalar where one of the tokens comes next that can follow it. -/
def readOr (p : Position) (followers : List Token) : (fuel : Nat) → List Token →
    Except Fault (Node × List Token)
  | 0, _ => .error .malformed
  | fuel + 1, ts => if comes followers ts then .ok (empty, ts) else read p fuel ts

/-- The items of a block, up to its end. -/
def blockItems : (fuel : Nat) → List Token → Except Fault (List Node × List Token)
  | 0, _ => .error .malformed
  | fuel + 1, ts =>
    match ts with
    | .blockEnd :: ts => .ok ([], ts)
    | .entry :: ts => do
      let (n, ts) ← readOr .inBlock [.entry, .blockEnd] fuel ts
      let (ns, ts) ← blockItems fuel ts
      .ok (n :: ns, ts)
    | ts => .error (unexpected ts)

/-- The items of a list that has the indentation of the mapping around it. -/
def bareItems : (fuel : Nat) → List Token → Except Fault (List Node × List Token)
  | 0, _ => .error .malformed
  | fuel + 1, ts =>
    match ts with
    | .entry :: ts => do
      let (n, ts) ← readOr .inBlock [.entry, .key, .value, .blockEnd] fuel ts
      let (ns, ts) ← bareItems fuel ts
      .ok (n :: ns, ts)
    | ts => .ok ([], ts)

/-- The entries of a block, up to its end. -/
def blockEntries : (fuel : Nat) → List Token → Except Fault (List (Node × Node) × List Token)
  | 0, _ => .error .malformed
  | fuel + 1, ts =>
    match ts with
    | .blockEnd :: ts => .ok ([], ts)
    | .key :: ts => do
      let (k, ts) ← readOr .inEntry [.key, .value, .blockEnd] fuel ts
      let (v, ts) ← readValue .inEntry [.key, .value, .blockEnd] fuel ts
      let (es, ts) ← blockEntries fuel ts
      .ok ((k, v) :: es, ts)
    | ts => .error (unexpected ts)

/-- The value behind a colon, or the empty scalar where there is no colon. -/
def readValue (p : Position) (followers : List Token) : (fuel : Nat) → List Token →
    Except Fault (Node × List Token)
  | 0, _ => .error .malformed
  | fuel + 1, ts =>
    match ts with
    | .value :: ts => readOr p followers fuel ts
    | ts => .ok (empty, ts)

/-- The items between brackets, up to the closing one. A single entry among them is a mapping. -/
def flowItems (isFirst : Bool) : (fuel : Nat) → List Token → Except Fault (List Node × List Token)
  | 0, _ => .error .malformed
  | fuel + 1, ts =>
    match ts with
    | .closeBracket :: ts => .ok ([], ts)
    | .comma :: ts => if isFirst then .error .malformed else flowItems true fuel ts
    | .key :: ts =>
      if isFirst then do
        let (k, ts) ← readOr .inFlow [.value, .comma, .closeBracket] fuel ts
        let (v, ts) ← readValue .inFlow [.comma, .closeBracket] fuel ts
        let (ns, ts) ← flowItems false fuel ts
        .ok (.map [(k, v)] :: ns, ts)
      else .error .malformed
    | ts =>
      if isFirst then do
        let (n, ts) ← read .inFlow fuel ts
        let (ns, ts) ← flowItems false fuel ts
        .ok (n :: ns, ts)
      else .error (unexpected ts)

/-- The entries between braces, up to the closing one. A node by itself is a key without value. -/
def flowEntries (isFirst : Bool) : (fuel : Nat) → List Token →
    Except Fault (List (Node × Node) × List Token)
  | 0, _ => .error .malformed
  | fuel + 1, ts =>
    match ts with
    | .closeBrace :: ts => .ok ([], ts)
    | .comma :: ts => if isFirst then .error .malformed else flowEntries true fuel ts
    | .key :: ts =>
      if isFirst then do
        let (k, ts) ← readOr .inFlow [.value, .comma, .closeBrace] fuel ts
        let (v, ts) ← readValue .inFlow [.comma, .closeBrace] fuel ts
        let (es, ts) ← flowEntries false fuel ts
        .ok ((k, v) :: es, ts)
      else .error .malformed
    | ts =>
      if isFirst then do
        let (k, ts) ← read .inFlow fuel ts
        let (es, ts) ← flowEntries false fuel ts
        .ok ((k, empty) :: es, ts)
      else .error (unexpected ts)

end

/-- The node of a document behind its start mark. -/
def readDocument (fuel : Nat) (ts : List Token) : Except Fault (Node × List Token) :=
  if ts.isEmpty || comes [.documentStart, .documentEnd] ts then .ok (empty, ts)
  else read .inBlock fuel ts

/-- The tree of the only document of a text, the empty scalar if there is none. -/
def ofTokens (ts : List Token) : Except Fault Node := do
  let fuel := 4 * ts.length + 4
  let (n, rest) ←
    match ts with
    | [] => .ok (empty, [])
    | .documentStart :: ts => readDocument fuel ts
    | ts => read .inBlock fuel ts
  match rest.dropWhile (· == .documentEnd) with
  | [] => .ok n
  | ts => .error (unexpected ts)

/-! ### To values -/

/-- The value of a scalar. -/
def scalarValue (isPlain : Bool) (text : List Char) : Except Fault Doc :=
  if isPlain then plainValue text else .ok (.text (String.ofList text))

/-- The value of a scalar that is a key: the equals sign is one. -/
def scalarKey (isPlain : Bool) (text : List Char) : Except Fault Doc :=
  if text = ['='] then .ok (.text "=") else scalarValue isPlain text

/-- The fault of a failed reading. -/
def faultOf : Except Fault Doc → List Fault
  | .ok _ => []
  | .error f => [f]

/-- The value of a successful reading. -/
def valueOf : Except Fault Doc → Doc
  | .ok d => d
  | .error _ => .null

/-- Lists appended level by level. -/
def mergeLevels : List (List Fault) → List (List Fault) → List (List Fault)
  | [], bs => bs
  | as, [] => as
  | a :: as, b :: bs => (a ++ b) :: mergeLevels as bs

/-- The faults of a key: it must be a scalar. -/
def keyFaults : Node → List Fault
  | .scalar isPlain text => faultOf (scalarKey isPlain text)
  | _ => [.malformed]

mutual

/-- The faults of a tree, those of the parts nearest to the root first. -/
def levels : Node → List (List Fault)
  | .scalar isPlain text => [faultOf (scalarValue isPlain text)]
  | .list items => [] :: itemLevels items
  | .map entries => [] :: entryLevels entries

/-- The faults of several trees. -/
def itemLevels : List Node → List (List Fault)
  | [] => []
  | n :: ns => mergeLevels (levels n) (itemLevels ns)

/-- The faults of the keys and values of a mapping. -/
def entryLevels : List (Node × Node) → List (List Fault)
  | [] => []
  | (k, v) :: es => mergeLevels [keyFaults k] (mergeLevels (levels v) (entryLevels es))

end

/-- The first fault of a tree, if it has any. -/
def firstFault? (n : Node) : Option Fault :=
  n.levels.flatten.head?

mutual

/-- The value of a tree without faults. -/
def toDoc : Node → Doc
  | .scalar isPlain text => valueOf (scalarValue isPlain text)
  | .list items => .list (itemDocs items)
  | .map entries => Doc.ofEntries (entryDocs entries)

/-- The values of several trees. -/
def itemDocs : List Node → List Doc
  | [] => []
  | n :: ns => toDoc n :: itemDocs ns

/-- The entries of a mapping, with their keys as values. -/
def entryDocs : List (Node × Node) → List (Doc × Doc)
  | [] => []
  | (.scalar isPlain text, v) :: es => (valueOf (scalarKey isPlain text), toDoc v) :: entryDocs es
  | (_, v) :: es => (.null, toDoc v) :: entryDocs es

end

end Node

/-- The tree of the only document of a text. -/
def tree (text : String) : Except Fault Node :=
  let cs := normalizeLineEnds text.toList
  let cs := if cs.head? = some byteOrderMark then cs.tail else cs
  if isAllowed cs then tokens cs >>= Node.ofTokens else .error .malformed

/-- The document that a text holds: `null` if it holds nothing. -/
def read (text : String) : Except Fault Doc := do
  let n ← tree text
  match n.firstFault? with
  | some f => .error f
  | none => .ok n.toDoc

/-- The reader as a library. Its grammar is a part of that of YAML: texts with anchors, tags or
directives do not follow it. -/
instance : Library where
  IsYaml text := tree text ≠ .error .malformed
  read := read

end SchemaAudit.Yaml
