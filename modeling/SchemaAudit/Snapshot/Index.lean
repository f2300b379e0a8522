import SchemaAudit.Snapshot.Column

/-!
# Index definitions

A column of an index is a text such as `name` or `name desc`, or a mapping with the fields
`expression` and `order`. `splitDirection` takes a text apart.
-/

namespace SchemaAudit.Snapshot

/-- The fields of an index. -/
def indexFields : List String :=
  ["name", "columns", "include", "unique", "enabled", "filter"]

/-- The letter that a character stands for where letter case does not matter: its small form, and
`s` for the long one. -/
def foldLetter (c : Char) : Char :=
  if c = 'ſ' then 's' else c.toLower

/-- Whether a word is one of the two words for directions, in any letter case. -/
def isDirectionWord (word : List Char) : Bool :=
  let w := word.map foldLetter
  w == ['a', 's', 'c'] || w == ['d', 'e', 's', 'c']

/-- Takes the direction from the end of a text without outer blanks: the last word, if it is one
for a direction and stands behind something on the same line. The answer is what stands before the
blanks in front of the word, and the word. -/
def splitDirection? (text : List Char) : Option (List Char × List Char) :=
  let word := (text.reverse.takeWhile (!Text.isBlank ·)).reverse
  let before := Text.stripEnd (text.reverse.dropWhile (!Text.isBlank ·)).reverse
  if isDirectionWord word && !before.isEmpty && !before.contains '\n' then some (before, word)
  else none

/-- The direction that a word stands for. -/
def readDirection (word : String) : Except Failure Direction :=
  let w := Text.lowerString (Text.stripString word)
  if w == "asc" then .ok .ascending
  else if w == "desc" then .ok .descending
  else .error (.snapshot (.unknownDirection word))

/-- The expression of an index column that a text gives, and the word for its direction. -/
def columnTextParts (text : String) : String × String :=
  let text := Text.strip text.toList
  match splitDirection? text with
  | some (before, word) => (String.ofList before, String.ofList word)
  | none => (String.ofList text, "asc")

/-- The expression of an index column, and the word for its direction. -/
def indexColumnTexts : Doc → Except Failure (String × String)
  | .map es => do
    let expression ← (fieldOr (.map es) "expression" (.text "")).write
    let order ← (fieldOr (.map es) "order" (.text "asc")).write
    .ok (expression, order)
  | d => d.write.map columnTextParts

/-- The expression and the direction of an index column. -/
def readIndexColumn (d : Doc) : Except Failure (String × Direction) := do
  let texts ← indexColumnTexts d
  require (!Text.isBlankString texts.1) (.missingExpression d)
  let direction ← readDirection texts.2
  .ok (Text.stripString texts.1, direction)

/-- An index column, with the column of the table that its expression names. -/
def linkIndexColumn (columns : List Column) (c : String × Direction) : IndexColumn :=
  ⟨c.1, c.2, columns.find? (·.name == c.1)⟩

/-- An index of a table with the given columns. -/
def readIndex (columns : List Column) (table : Identifier) (d : Doc) : Except Failure Index := do
  checkFields .index indexFields d
  let parts ← readNames (d.get "columns")
  let indexColumns ← parts.mapM readIndexColumn
  let extra := d.get "include"
  let included ← if extra.isPresent then resolveColumns columns .index table extra else .ok []
  .ok {
    name := d.get "name"
    columns := indexColumns.map (linkIndexColumn columns)
    included := included
    unique := fieldOr d "unique" (.bool false)
    enabled := fieldOr d "enabled" (.bool true)
    filter := d.get "filter" }

end SchemaAudit.Snapshot
