import SchemaAudit.Snapshot.Index
import SchemaAudit.Snapshot.Key

/-!
# Table definitions

A table is read into a `Draft`: the table without its relationships, and the foreign keys that it
declares.
-/

namespace SchemaAudit.Snapshot

/-- The fields of a table. -/
def tableFields : List String :=
  ["table", "schema", "columns", "primary_key", "unique_keys", "foreign_keys", "indexes", "checks",
    "triggers"]

/-- A check constraint. -/
def readCheck (d : Doc) : Except Failure Check := do
  require (d.get "definition").isPresent (.missingCheck d)
  .ok ⟨d.get "name", d.get "definition", fieldOr d "enabled" (.bool true)⟩

/-- The times at which a trigger fires and the words for them. -/
def timingWords : List (String × Timing) :=
  [("before", .before), ("after", .after), ("instead of", .insteadOf)]

/-- The time at which a trigger fires. -/
def readTiming (trigger d : Doc) : Except Failure Timing :=
  match timingWords.lookup (wordOf d) with
  | some t => .ok t
  | none => .error (.snapshot (.unknownTiming trigger))

/-- The events together with the one that a value names. `NONE` adds nothing. -/
def addEvent (trigger : Doc) (events : Events) (d : Doc) : Except Failure Events :=
  let word := Text.upperString d.display
  if word == "INSERT" then .ok { events with insert := true }
  else if word == "UPDATE" then .ok { events with update := true }
  else if word == "DELETE" then .ok { events with delete := true }
  else if word == "NONE" then .ok events
  else .error (.snapshot (.unknownEvent trigger d))

/-- A trigger. -/
def readTrigger (d : Doc) : Except Failure Trigger := do
  let name := d.get "name"
  require name.isPresent (.missingTrigger d)
  let timing ← readTiming name (fieldOr d "timing" (.text "after"))
  let eventParts ← readNames (d.get "events")
  let events ← eventParts.foldlM (addEvent name) {}
  .ok ⟨name, fieldOr d "definition" (.text ""), timing, events, fieldOr d "enabled" (.bool true)⟩

/-- A table without its relationships, and the foreign keys that it declares. -/
structure Draft where
  table : Table
  foreignKeys : List ForeignKey
  deriving DecidableEq, Repr

/-- An optional primary key. -/
def readPrimaryKey (columns : List Column) (table : Identifier) (d : Doc) :
    Except Failure (Option Key) :=
  if d.isPresent then do
    let k ← readKey .primary columns table d
    .ok (some k)
  else .ok none

/-- The columns of a table, no two of the same name. -/
def readColumns (table : Identifier) (d : Doc) : Except Failure (List Column) := do
  let columns ← readList readColumn d
  match repeatedColumn? [] columns with
  | some c => .error (.snapshot (.duplicateColumn c.name table))
  | none => .ok columns

/-- A table and its foreign keys. -/
def readTable (d : Doc) : Except Failure Draft := do
  checkFields .table tableFields d
  let name ← readName .table "table" d
  let columns ← readColumns name (d.get "columns")
  let primaryKey ← readPrimaryKey columns name (d.get "primary_key")
  let uniqueKeys ← readList (readKey .unique columns name) (d.get "unique_keys")
  let indexes ← readList (readIndex columns name) (d.get "indexes")
  let checks ← readList readCheck (d.get "checks")
  let triggers ← readList readTrigger (d.get "triggers")
  let foreignKeys ← readList (readForeignKey columns name) (d.get "foreign_keys")
  .ok ⟨{ name, columns, primaryKey, uniqueKeys, indexes, checks, triggers }, foreignKeys⟩

end SchemaAudit.Snapshot
