import SchemaAudit.Snapshot.Column

/-!
# Key definitions

* `readKey`: a primary or unique key;
* `readForeignKey`: a foreign key as it is declared, before the table it references is known;
* `ForeignKey.resolve`: the relationship that it makes with the referenced table.
-/

namespace SchemaAudit.Snapshot

/-- The fields of a primary or unique key. -/
def keyFields : List String :=
  ["name", "columns", "enabled"]

/-- The fields of a foreign key. -/
def foreignKeyFields : List String :=
  ["name", "columns", "references", "on_update", "on_delete", "enabled"]

/-- What a definition of a key of the given kind is called. -/
def keyDefinition : KeyKind → Definition
  | .primary => .primaryKey
  | .unique => .uniqueKey
  | .foreign => .foreignKey

/-- The mapping that a key definition stands for: a list or a text is that of its columns. -/
def keyMapping : Doc → Doc
  | .list ds => .map [(.text "columns", .list ds)]
  | .text s => .map [(.text "columns", .text s)]
  | d => d

/-- A primary or unique key of a table with the given columns. -/
def readKey (kind : KeyKind) (columns : List Column) (table : Identifier) (d : Doc) :
    Except Failure Key := do
  let d := keyMapping d
  checkFields (keyDefinition kind) keyFields d
  let keyColumns ← resolveColumns columns (keyDefinition kind) table (d.get "columns")
  .ok ⟨d.get "name", kind, keyColumns, fieldOr d "enabled" (.bool true)⟩

/-- A foreign key as it is declared. -/
structure ForeignKey where
  name : Doc
  columns : List Column
  parentTable : Identifier
  /-- The referenced columns, none for the primary key. -/
  parentColumns : List Doc
  onUpdate : Action
  onDelete : Action
  enabled : Doc
  deriving DecidableEq, Repr

/-- The actions and the words for them. -/
def actionWords : List (String × Action) :=
  [("no action", .noAction), ("restrict", .restrict), ("cascade", .cascade),
    ("set null", .setNull), ("set default", .setDefault)]

/-- The action on an update or a deletion: none where the value is `null`. -/
def readAction (table : Identifier) (d : Doc) : Except Failure Action :=
  if d = .null then .ok .noAction
  else
    match actionWords.lookup (wordOf d) with
    | some a => .ok a
    | none => .error (.snapshot (.unknownAction table d))

/-- A foreign key of a table with the given columns. -/
def readForeignKey (columns : List Column) (table : Identifier) (d : Doc) :
    Except Failure ForeignKey := do
  checkFields .foreignKey foreignKeyFields d
  let keyColumns ← resolveColumns columns .foreignKey table (d.get "columns")
  let references := d.get "references"
  let parent := references.get "table"
  require parent.isPresent (.missingReference table)
  let parentName ← parent.write
  let parentTable ← makeIdentifier parentName (references.get "schema")
  let parentColumns ← readNames (references.get "columns")
  let onUpdate ← readAction table (d.get "on_update")
  let onDelete ← readAction table (d.get "on_delete")
  .ok ⟨d.get "name", keyColumns, parentTable, parentColumns, onUpdate, onDelete,
    fieldOr d "enabled" (.bool true)⟩

/-- The names of the columns of a key, as values of a document. -/
def columnTexts (k : Key) : List Doc :=
  k.columns.map fun c => .text c.name

/-- The key of the parent table that a foreign key references: without columns the primary key,
otherwise the first of the primary and unique keys with exactly these columns. -/
def findParentKey (parent : Table) (parentColumns : List Doc) : Except Failure Key :=
  match parentColumns with
  | [] =>
    match parent.primaryKey with
    | some k => .ok k
    | none => .error (.snapshot (.noPrimaryKey parent.name))
  | c :: cs =>
    match (parent.primaryKey.toList ++ parent.uniqueKeys).find? (columnTexts · == c :: cs) with
    | some k => .ok k
    | none => do
      let names ← Doc.keyTexts (c :: cs)
      .error (.snapshot (.noSuchKey parent.name names))

/-- The relationship between a child table and the table that one of its foreign keys
references. -/
def ForeignKey.resolve (f : ForeignKey) (child parent : Table) : Except Failure Relationship := do
  let parentKey ← findParentKey parent f.parentColumns
  require (parentKey.columns.length == f.columns.length)
    (.columnCount parent.name f.columns.length parentKey.columns.length)
  .ok {
    childTable := child.name
    childKey := ⟨f.name, .foreign, f.columns, f.enabled⟩
    parentTable := parent.name
    parentKey := parentKey
    onUpdate := f.onUpdate
    onDelete := f.onDelete }

end SchemaAudit.Snapshot
