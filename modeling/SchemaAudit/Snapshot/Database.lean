import SchemaAudit.Snapshot.Link

/-!
# Snapshots

`readDatabase` turns the document of a snapshot into the database that it describes, or says what
is wrong with it.
-/

namespace SchemaAudit.Snapshot

/-- The sections of a snapshot. -/
def sections : List String :=
  ["reserved_keywords", "tables", "views", "sequences", "synonyms", "routines"]

/-- The tables of a list of definitions, no two of the same name. `seen` are the names of the tables
before them. -/
def readTables (seen : List Identifier) : List Doc → Except Failure (List Draft)
  | [] => .ok []
  | d :: ds => do
    let draft ← readTable d
    require (!seen.contains draft.table.name) (.duplicateTable draft.table.name)
    let drafts ← readTables (draft.table.name :: seen) ds
    .ok (draft :: drafts)

/-- A view. -/
def readView (d : Doc) : Except Failure View := do
  require d.isMap (.notMapping .view d)
  let name ← readName .view "name" d
  let columns ← readList readColumn (d.get "columns")
  .ok ⟨name, fieldOr d "definition" (.text ""), columns, fieldOr d "materialized" (.bool false)⟩

/-- A sequence. -/
def readSequence (d : Doc) : Except Failure Sequence := do
  require d.isMap (.notMapping .sequence d)
  let name ← readName .sequence "name" d
  let owner := s!"Sequence '{name.text}'"
  let start ← readInteger owner "start" (fieldOr d "start" (.int 1))
  let increment ← readInteger owner "increment" (fieldOr d "increment" (.int 1))
  let minValue ← readOptionalInteger owner "min_value" (d.get "min_value")
  let maxValue ← readOptionalInteger owner "max_value" (d.get "max_value")
  let cache ← readInteger owner "cache" (fieldOr d "cache" (.int 0))
  .ok ⟨name, start, increment, minValue, maxValue, fieldOr d "cycle" (.bool false), cache⟩

/-- A synonym. The target is written with points between its parts. -/
def readSynonym (d : Doc) : Except Failure Synonym := do
  require d.isMap (.notMapping .synonym d)
  let target := d.get "target"
  require target.isPresent (.missingTarget (d.get "name"))
  let name ← readName .synonym "name" d
  let text ← target.write
  match Identifier.ofParts ((Text.splitString '.' text).map some) with
  | .ok targetName => .ok ⟨name, targetName⟩
  | .error fault => .error (.snapshot (.invalidTarget name target fault))

/-- A routine. -/
def readRoutine (d : Doc) : Except Failure Routine := do
  require d.isMap (.notMapping .routine d)
  let name ← readName .routine "name" d
  .ok ⟨name, fieldOr d "definition" (.text "")⟩

/-- A reserved keyword. -/
def readKeyword : Doc → Except Failure String
  | .text s => .ok s
  | _ => .error (.snapshot .keywordsNotTexts)

/-- The database that the sections of a snapshot describe. -/
def readSections (d : Doc) : Except Failure Database := do
  if d.isMap then .ok () else .error .wrongKind
  let tableParts ← readParts (d.get "tables")
  let drafts ← readTables [] tableParts
  let tables ← linkTables drafts
  let views ← readList readView (d.get "views")
  let sequences ← readList readSequence (d.get "sequences")
  let synonyms ← readList readSynonym (d.get "synonyms")
  let routines ← readList readRoutine (d.get "routines")
  let keywords ← readList readKeyword (d.get "reserved_keywords")
  .ok { tables, views, sequences, synonyms, routines, reservedKeywords := Text.distinct keywords }

/-- The database that a snapshot describes. A fault that cannot be told is another failure. -/
def readDatabase (d : Doc) : Except Failure Database :=
  (readSections d).mapError Failure.told

end SchemaAudit.Snapshot
