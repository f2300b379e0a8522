import SchemaAudit.Proofs.Snapshot.Rearranging
import SchemaAudit.Proofs.Snapshot.WellFormed

/-!
# Unknown fields

Tables, columns, keys, foreign keys and indexes have no fields but the known ones: a definition with
others is refused, and the fault names all of them. The files of a snapshot have no sections but the
known ones either.

No other definition is compared with a list of fields. Of a check, a trigger, a view, a sequence, a
synonym or a routine, of the reference of a foreign key, of the numbers of a column that counts up
and of the column of an index, some fields are read, and any others can be there: a misspelt field
is passed over, and its default holds.

- `HasOnly`, `RefusesUnknown`: a definition without unknown fields, and how another is refused.
- `ComparedFields`, `UncomparedKnown`, `AllKnown`: which definitions have known fields only.
- `Rewords`: another definition that says the same in the fields that are read.
- `SnapshotRewords`: another snapshot that does so, in whichever definitions are not compared.
- `fields_compared`: what is compared, and what is not.
-/

namespace SchemaAudit.Snapshot

/-! ### Definitions that are compared -/

/-- A definition is a mapping without any fields but the given ones. -/
def HasOnly (fields : List String) (e : Doc) : Prop :=
  e.isMap = true ∧ ∀ k ∈ e.entries.map (·.1), k ∈ fields.map Doc.text

/-- How a mapping with unknown fields is refused: by a fault that names all of them in order, or, if
one of them is no text, as a value of the wrong shape. -/
inductive RefusesUnknown (fields : List String) (fault : List String → Failure) (e : Doc) :
    Failure → Prop where
  | named {names : List String} (hne : names ≠ [])
    (hnames : e.unknownKeys fields = names.map Doc.text) :
    RefusesUnknown fields fault e (fault (Text.sorted names))
  | unnamed {k : Doc} (hk : k ∈ e.unknownKeys fields) (htext : ∀ s, k ≠ .text s) :
    RefusesUnknown fields fault e .wrongShape

/-- How a definition that is compared with the known fields is refused. -/
inductive RefusesFields (kind : Definition) (fields : List String) (e : Doc) : Failure → Prop where
  | notMapping (h : e.isMap = false) :
    RefusesFields kind fields e (.snapshot (.notMapping kind e))
  | unknown {f : Failure} (hmap : e.isMap = true)
    (h : RefusesUnknown fields (fun names => .snapshot (.unknownFields kind names)) e f) :
    RefusesFields kind fields e f

variable {e : Doc} {f : Failure}

theorem checkFields_eq_ok_iff {kind : Definition} {fields : List String} {u : Unit} :
    checkFields kind fields e = .ok u ↔ HasOnly fields e := by
  rw [checkFields, bind_eq_ok_iff]
  simp only [require_eq_ok_iff, requireKnown_eq_ok_iff, HasOnly, exists_const]

/-- The names of fields are listed if all of them are texts. -/
theorem keyTexts_eq_ok_iff {keys : List Doc} {names : List String} :
    Doc.keyTexts keys = .ok names ↔ keys = names.map Doc.text := by
  rw [Doc.keyTexts, mapM_eq_ok_iff, ← List.forall₂_eq_eq_eq, List.forall₂_map_right_iff]
  constructor
  · refine List.Forall₂.imp fun k name h => ?_
    cases k <;> cases h
    rfl
  · refine List.Forall₂.imp fun k name h => ?_
    rw [h]

/-- A name that is no text cannot be listed. -/
theorem keyTexts_eq_error_iff {keys : List Doc} :
    Doc.keyTexts keys = .error f ↔ f = .wrongShape ∧ ∃ k ∈ keys, ∀ s, k ≠ .text s := by
  constructor
  · intro h
    obtain ⟨before, k, after, rfl, -, hk⟩ := mapM_eq_error_iff.mp h
    refine ⟨?_, k, by simp, ?_⟩
    · cases k <;> cases hk <;> rfl
    · rintro s rfl
      cases hk
  · rintro ⟨rfl, k, hk, htext⟩
    cases hread : Doc.keyTexts keys with
    | ok names =>
      obtain ⟨s, -, hs⟩ := List.mem_map.mp (keyTexts_eq_ok_iff.mp hread ▸ hk)
      exact absurd hs.symm (htext s)
    | error g =>
      obtain ⟨before, k', after, -, -, hg⟩ := mapM_eq_error_iff.mp hread
      cases k' <;> cases hg <;> rfl

theorem requireKnown_eq_error_iff {fields : List String} {fault : List String → Failure} :
    e.requireKnown fields fault = .error f ↔ RefusesUnknown fields fault e f := by
  unfold Doc.requireKnown
  split
  · next hnil =>
    refine ⟨nofun, ?_⟩
    rintro (⟨hne, hnames⟩ | ⟨hk, -⟩)
    · exact absurd (List.map_eq_nil_iff.mp (hnames.symm.trans hnil)) hne
    · rw [hnil] at hk
      exact absurd hk List.not_mem_nil
  · next k ks hcons =>
    rw [← hcons]
    constructor
    · intro h
      cases hread : Doc.keyTexts (e.unknownKeys fields) with
      | ok names =>
        rw [hread] at h
        obtain rfl := Except.error.inj h
        have hnames := keyTexts_eq_ok_iff.mp hread
        refine .named ?_ hnames
        rintro rfl
        cases hcons.symm.trans hnames
      | error g =>
        rw [hread] at h
        obtain rfl := Except.error.inj h
        obtain ⟨rfl, k, hk, htext⟩ := keyTexts_eq_error_iff.mp hread
        exact .unnamed hk htext
    · rintro (⟨hne, hnames⟩ | ⟨hk, htext⟩)
      · rw [bind_eq_of_ok (keyTexts_eq_ok_iff.mpr hnames)]
      · exact bind_eq_of_error (keyTexts_eq_error_iff.mpr ⟨rfl, _, hk, htext⟩)

theorem checkFields_eq_error_iff {kind : Definition} {fields : List String} :
    checkFields kind fields e = .error f ↔ RefusesFields kind fields e f := by
  cases hmap : e.isMap with
  | false =>
    have hrefused : checkFields kind fields e = .error (.snapshot (.notMapping kind e)) := by
      rw [checkFields, hmap]
      rfl
    rw [hrefused, Except.error.injEq]
    constructor
    · rintro rfl
      exact .notMapping hmap
    · rintro (- | ⟨hyes, -⟩)
      · rfl
      · cases hmap.symm.trans hyes
  | true =>
    have hrequire : require e.isMap (.notMapping kind e) = .ok () := require_eq_ok_iff.mpr hmap
    rw [checkFields, bind_eq_of_ok hrequire, requireKnown_eq_error_iff]
    refine ⟨.unknown hmap, ?_⟩
    rintro (hno | ⟨-, h⟩)
    · cases hmap.symm.trans hno
    · exact h

/-! ### Accepted snapshots -/

/-- All parts of an optional list have a property. -/
def ForParts (P : Doc → Prop) (d : Doc) : Prop :=
  ∃ es, d.parts? = some es ∧ ∀ e ∈ es, P e

/-- The definitions of a table that are compared have known fields only. -/
structure TableKnown (e : Doc) : Prop where
  table : HasOnly tableFields e
  columns : ForParts (HasOnly columnFields) (e.get "columns")
  primaryKey : (e.get "primary_key").isPresent = true →
    HasOnly keyFields (keyMapping (e.get "primary_key"))
  uniqueKeys : ForParts (fun k => HasOnly keyFields (keyMapping k)) (e.get "unique_keys")
  foreignKeys : ForParts (HasOnly foreignKeyFields) (e.get "foreign_keys")
  indexes : ForParts (HasOnly indexFields) (e.get "indexes")

/-- The definitions of a snapshot that are compared have known fields only. -/
structure ComparedFields (d : Doc) : Prop where
  tables : ForParts TableKnown (d.get "tables")
  views : ForParts (fun v => ForParts (HasOnly columnFields) (v.get "columns")) (d.get "views")

variable {d : Doc}

theorem forParts_of_readList {α : Type} {read : Doc → Except Failure α} {P : Doc → Prop}
    (hread : ∀ {e a}, read e = .ok a → P e) {as : List α} (h : readList read d = .ok as) :
    ForParts P d := by
  obtain ⟨es, hes, has⟩ := readList_eq_ok_iff.mp h
  refine ⟨es, hes, fun e he => ?_⟩
  obtain ⟨a, -, ha⟩ := exists_partner has e he
  exact hread ha

theorem hasOnly_of_readColumn {c : Column} (h : readColumn e = .ok c) :
    HasOnly columnFields e := by
  obtain ⟨u, hu, -⟩ := bind_eq_ok_iff.mp h
  exact checkFields_eq_ok_iff.mp hu

section Tables

variable {columns : List Column} {table : Identifier}

theorem hasOnly_of_readKey {kind : KeyKind} {k : Key} (h : readKey kind columns table e = .ok k) :
    HasOnly keyFields (keyMapping e) := by
  obtain ⟨u, hu, -⟩ := bind_eq_ok_iff.mp h
  exact checkFields_eq_ok_iff.mp hu

theorem hasOnly_of_readPrimaryKey {k? : Option Key}
    (h : readPrimaryKey columns table e = .ok k?) (hpresent : e.isPresent = true) :
    HasOnly keyFields (keyMapping e) := by
  rw [readPrimaryKey, if_pos hpresent] at h
  obtain ⟨k, hk, -⟩ := bind_eq_ok_iff.mp h
  exact hasOnly_of_readKey hk

theorem hasOnly_of_readForeignKey {k : ForeignKey}
    (h : readForeignKey columns table e = .ok k) : HasOnly foreignKeyFields e := by
  obtain ⟨u, hu, -⟩ := bind_eq_ok_iff.mp h
  exact checkFields_eq_ok_iff.mp hu

theorem hasOnly_of_readIndex {i : Index} (h : readIndex columns table e = .ok i) :
    HasOnly indexFields e := by
  obtain ⟨u, hu, -⟩ := bind_eq_ok_iff.mp h
  exact checkFields_eq_ok_iff.mp hu

end Tables

theorem tableKnown_of_readTable {dt : Draft} (h : readTable e = .ok dt) : TableKnown e := by
  simp only [readTable, bind_eq_ok_iff, readColumns_eq_ok_iff] at h
  obtain ⟨u, hfields, name, -, columns, ⟨hcolumns, -⟩, key, hkey, uniques, huniques, indexes,
    hindexes, -, -, -, -, fks, hfks, -⟩ := h
  exact {
    table := checkFields_eq_ok_iff.mp hfields
    columns := forParts_of_readList hasOnly_of_readColumn hcolumns
    primaryKey := hasOnly_of_readPrimaryKey hkey
    uniqueKeys := forParts_of_readList hasOnly_of_readKey huniques
    foreignKeys := forParts_of_readList hasOnly_of_readForeignKey hfks
    indexes := forParts_of_readList hasOnly_of_readIndex hindexes }

theorem comparedFields_of_readDatabase {db : Database} (h : readDatabase d = .ok db) :
    ComparedFields d := by
  obtain ⟨-, ⟨es, ds, hes, hdrafts, -⟩, hviews, -⟩ := readDatabase_eq_ok_iff.mp h
  obtain ⟨hread, -⟩ := readTables_eq_ok_iff.mp hdrafts
  refine ⟨⟨es, hes, fun e he => ?_⟩, forParts_of_readList (fun {v a} hv => ?_) hviews⟩
  · obtain ⟨dt, -, hdt⟩ := exists_partner hread e he
    exact tableKnown_of_readTable hdt
  · simp only [readView, bind_eq_ok_iff] at hv
    obtain ⟨-, -, name, -, columns, hcolumns, -⟩ := hv
    exact forParts_of_readList hasOnly_of_readColumn hcolumns

/-! ### Definitions that are not compared -/

/-- The fields that are read of a check. -/
def constraintFields : List String :=
  ["name", "definition", "enabled"]

/-- The fields that are read of a trigger. -/
def triggerFields : List String :=
  ["name", "definition", "timing", "events", "enabled"]

/-- The fields that are read of a view. -/
def viewFields : List String :=
  ["name", "schema", "definition", "materialized", "columns"]

/-- The fields that are read of a sequence. -/
def sequenceFields : List String :=
  ["name", "schema", "start", "increment", "min_value", "max_value", "cycle", "cache"]

/-- The fields that are read of a synonym. -/
def synonymFields : List String :=
  ["name", "schema", "target"]

/-- The fields that are read of a routine. -/
def routineFields : List String :=
  ["name", "schema", "definition"]

/-- The fields that are read of the reference of a foreign key. -/
def referenceFields : List String :=
  ["table", "schema", "columns"]

/-- The fields that are read of the numbers of a column that counts up. -/
def countingFields : List String :=
  ["initial", "increment"]

/-- The fields that are read of the column of an index. -/
def indexColumnFields : List String :=
  ["expression", "order"]

/-- The definitions inside a table that are not compared have known fields only. -/
structure InnerKnown (e : Doc) : Prop where
  counting : ForParts (fun c => (c.get "autoincrement").isMap = true →
    HasOnly countingFields (c.get "autoincrement")) (e.get "columns")
  references : ForParts (fun k => HasOnly referenceFields (k.get "references"))
    (e.get "foreign_keys")
  indexColumns : ForParts (fun i => ∀ ds, readNames (i.get "columns") = .ok ds →
    ∀ c ∈ ds, c.isMap = true → HasOnly indexColumnFields c) (e.get "indexes")
  checks : ForParts (HasOnly constraintFields) (e.get "checks")
  triggers : ForParts (HasOnly triggerFields) (e.get "triggers")

/-- The definitions of a snapshot that are not compared have known fields only, and so has the
snapshot itself. -/
structure UncomparedKnown (d : Doc) : Prop where
  sections : KnownFields d
  tables : ForParts InnerKnown (d.get "tables")
  views : ForParts (HasOnly viewFields) (d.get "views")
  viewColumns : ForParts (fun v => ForParts (fun c => (c.get "autoincrement").isMap = true →
    HasOnly countingFields (c.get "autoincrement")) (v.get "columns")) (d.get "views")
  sequences : ForParts (HasOnly sequenceFields) (d.get "sequences")
  synonyms : ForParts (HasOnly synonymFields) (d.get "synonyms")
  routines : ForParts (HasOnly routineFields) (d.get "routines")

/-- No definition of a snapshot has an unknown field. -/
def AllKnown (d : Doc) : Prop :=
  ComparedFields d ∧ UncomparedKnown d

/-- The fields that are read of each kind of definition that is not compared. -/
def uncomparedFields : List (List String) :=
  [constraintFields, triggerFields, viewFields, sequenceFields, synonymFields, routineFields,
    referenceFields, countingFields, indexColumnFields]

/-- The definition `e'` says the same as `e` in the given fields. Both can have any other fields,
and these need not be the same. -/
def Rewords (fields : List String) (e e' : Doc) : Prop :=
  e' = e ∨ e.isMap = true ∧ e'.isMap = true ∧ ∀ name ∈ fields, e'.get? name = e.get? name

namespace Rewords

variable {fields : List String} {e' : Doc}

theorem isMap (h : Rewords fields e e') : e'.isMap = e.isMap := by
  rcases h with rfl | ⟨hmap, hmap', -⟩
  · rfl
  · exact hmap'.trans hmap.symm

theorem get? (h : Rewords fields e e') {name : String} (hname : name ∈ fields) :
    e'.get? name = e.get? name := by
  rcases h with rfl | ⟨-, -, hsame⟩
  · rfl
  · exact hsame name hname

theorem get (h : Rewords fields e e') (name : String) (hname : name ∈ fields) :
    e'.get name = e.get name := by
  rw [Doc.get, Doc.get, h.get? hname]

theorem fieldOr (h : Rewords fields e e') (name : String) (hname : name ∈ fields)
    (fallback : Doc) : Snapshot.fieldOr e' name fallback = Snapshot.fieldOr e name fallback := by
  rw [Snapshot.fieldOr, Snapshot.fieldOr, h.get? hname]

theorem readName (h : Rewords fields e e') (field : String) (hfield : field ∈ fields)
    (hschema : "schema" ∈ fields) (kind : Definition) :
    Snapshot.readName kind field e' = Snapshot.readName kind field e := by
  rw [Snapshot.readName, Snapshot.readName, h.get field hfield, h.get "schema" hschema]

end Rewords

theorem fieldOf?_eq_none {name : String} :
    ∀ {es : List (Doc × Doc)}, (∀ x ∈ es, x.1 ≠ .text name) → Doc.fieldOf? name es = none
  | [], _ => rfl
  | (k, v) :: es, h => by
    obtain ⟨hk, hes⟩ := List.forall_mem_cons.mp h
    exact (if_neg hk).trans (fieldOf?_eq_none hes)

theorem fieldOf?_append {name : String} {es more : List (Doc × Doc)}
    (h : ∀ x ∈ more, x.1 ≠ .text name) :
    Doc.fieldOf? name (es ++ more) = Doc.fieldOf? name es := by
  induction es with
  | nil => exact fieldOf?_eq_none h
  | cons e es ih =>
    obtain ⟨k, v⟩ := e
    rw [List.cons_append, Doc.fieldOf?, Doc.fieldOf?, ih]

/-- Two mappings say the same if they have the same fields in front of others that are not read. -/
theorem rewords_append {fields : List String} {es more more' : List (Doc × Doc)}
    (h : ∀ x ∈ more, x.1 ∉ fields.map Doc.text) (h' : ∀ x ∈ more', x.1 ∉ fields.map Doc.text) :
    Rewords fields (.map (es ++ more)) (.map (es ++ more')) := by
  have hne : ∀ {xs : List (Doc × Doc)} {name}, (∀ x ∈ xs, x.1 ∉ fields.map Doc.text) →
      name ∈ fields → ∀ x ∈ xs, x.1 ≠ .text name :=
    fun hxs hname x hx heq => hxs x hx (heq ▸ List.mem_map_of_mem hname)
  refine .inr ⟨rfl, rfl, fun name hname => ?_⟩
  exact (fieldOf?_append (hne h' hname)).trans (fieldOf?_append (hne h hname)).symm

/-- The optional lists `d` and `d'` have related parts, one by one. -/
def PartsBy (R : Doc → Doc → Prop) (d d' : Doc) : Prop :=
  ∃ es es', d.parts? = some es ∧ d'.parts? = some es' ∧ List.Forall₂ R es es'

/-- What is read of a definition is read of every related one. -/
def ReadAlike {α : Type} (R : Doc → Doc → Prop) (read : Doc → Except Failure α) : Prop :=
  ∀ e e' a, R e e' → read e = .ok a → read e' = .ok a

section Parts

variable {α : Type} {R : Doc → Doc → Prop} {read : Doc → Except Failure α} {as : List α}

theorem ReadAlike.forall₂ (hread : ReadAlike R read) {es es' : List Doc} (h : List.Forall₂ R es es')
    (has : List.Forall₂ (fun e a => read e = .ok a) es as) :
    List.Forall₂ (fun e a => read e = .ok a) es' as := by
  refine (pairs_comp h.flip has).imp ?_
  rintro e' a ⟨e, hR, he⟩
  exact hread e e' a hR he

theorem ReadAlike.readList (hread : ReadAlike R read) {d' : Doc} (h : PartsBy R d d')
    (has : readList read d = .ok as) : Snapshot.readList read d' = .ok as := by
  obtain ⟨es, es', hes, hes', hR⟩ := h
  obtain ⟨es₀, hes₀, has⟩ := readList_eq_ok_iff.mp has
  obtain rfl := Option.some.inj (hes.symm.trans hes₀)
  exact readList_eq_ok_iff.mpr ⟨es', hes', hread.forall₂ hR has⟩

end Parts

/-! ### Reading other words -/

theorem readCheck_alike : ReadAlike (Rewords constraintFields) readCheck := by
  intro e e' c h hc
  simp only [readCheck, bind_eq_ok_iff, require_eq_ok_iff] at hc ⊢
  rwa [h.get "definition" (by decide), h.get "name" (by decide), h.fieldOr "enabled" (by decide)]

theorem readTrigger_alike : ReadAlike (Rewords triggerFields) readTrigger := by
  intro e e' t h ht
  simp only [readTrigger, bind_eq_ok_iff, require_eq_ok_iff] at ht ⊢
  rwa [h.get "name" (by decide), h.get "events" (by decide), h.fieldOr "timing" (by decide),
    h.fieldOr "definition" (by decide), h.fieldOr "enabled" (by decide)]

theorem readSequence_alike : ReadAlike (Rewords sequenceFields) readSequence := by
  intro e e' s h hs
  simp only [readSequence, bind_eq_ok_iff, require_eq_ok_iff] at hs ⊢
  rwa [h.isMap, h.readName "name" (by decide) (by decide), h.fieldOr "start" (by decide),
    h.fieldOr "increment" (by decide), h.get "min_value" (by decide),
    h.get "max_value" (by decide), h.fieldOr "cache" (by decide), h.fieldOr "cycle" (by decide)]

theorem readSynonym_alike : ReadAlike (Rewords synonymFields) readSynonym := by
  intro e e' s h hs
  simp only [readSynonym, bind_eq_ok_iff, require_eq_ok_iff] at hs ⊢
  rwa [h.isMap, h.readName "name" (by decide) (by decide), h.get "target" (by decide)]

theorem readRoutine_alike : ReadAlike (Rewords routineFields) readRoutine := by
  intro e e' r h hr
  simp only [readRoutine, bind_eq_ok_iff, require_eq_ok_iff] at hr ⊢
  rwa [h.isMap, h.readName "name" (by decide) (by decide), h.fieldOr "definition" (by decide)]

theorem exists_map_of_isMap (h : e.isMap = true) : ∃ es, e = .map es := by
  cases e with
  | map es => exact ⟨es, rfl⟩
  | _ => cases h

theorem readAutoIncrement_alike (column : Doc) :
    ReadAlike (Rewords countingFields) (readAutoIncrement column) := by
  intro e e' counting h hcounting
  have hinitial := h.fieldOr "initial" (by decide) (.int 1)
  have hincrement := h.fieldOr "increment" (by decide) (.int 1)
  rcases h with rfl | ⟨hmap, hmap', -⟩
  · exact hcounting
  · obtain ⟨es, rfl⟩ := exists_map_of_isMap hmap
    obtain ⟨es', rfl⟩ := exists_map_of_isMap hmap'
    rw [readAutoIncrement] at hcounting ⊢
    rwa [hinitial, hincrement]

theorem indexColumnTexts_alike : ReadAlike (Rewords indexColumnFields) indexColumnTexts := by
  intro e e' texts h htexts
  have hexpression := h.fieldOr "expression" (by decide) (.text "")
  have horder := h.fieldOr "order" (by decide) (.text "asc")
  rcases h with rfl | ⟨hmap, hmap', -⟩
  · exact htexts
  · obtain ⟨es, rfl⟩ := exists_map_of_isMap hmap
    obtain ⟨es', rfl⟩ := exists_map_of_isMap hmap'
    rw [indexColumnTexts] at htexts ⊢
    rwa [hexpression, horder]

theorem readIndexColumn_alike : ReadAlike (Rewords indexColumnFields) readIndexColumn := by
  intro e e' c h hc
  simp only [readIndexColumn, bind_eq_ok_iff, require_eq_ok_iff] at hc ⊢
  obtain ⟨texts, htexts, hc⟩ := hc
  exact ⟨texts, indexColumnTexts_alike e e' texts h htexts, hc⟩

/-! ### Definitions with other words inside

The definitions that are compared say the same, too, if what is not compared inside them does. -/

/-- The columns `e` and `e'` of a table or view say the same, and so do their numbers. -/
structure ColumnRewords (e e' : Doc) : Prop where
  known : HasOnly columnFields e'
  plain : Rewords ["name", "type", "data_type", "nullable", "default", "computed"] e e'
  counting : Rewords countingFields (e.get "autoincrement") (e'.get "autoincrement")

/-- The foreign keys `e` and `e'` say the same, and so do their references. -/
structure ForeignKeyRewords (e e' : Doc) : Prop where
  known : HasOnly foreignKeyFields e'
  plain : Rewords ["name", "columns", "on_update", "on_delete", "enabled"] e e'
  reference : Rewords referenceFields (e.get "references") (e'.get "references")

/-- The indexes `e` and `e'` say the same, and so do their columns. -/
structure IndexRewords (e e' : Doc) : Prop where
  known : HasOnly indexFields e'
  plain : Rewords ["name", "include", "unique", "enabled", "filter"] e e'
  columns : ∃ ds ds', readNames (e.get "columns") = .ok ds ∧
    readNames (e'.get "columns") = .ok ds' ∧ List.Forall₂ (Rewords indexColumnFields) ds ds'

/-- The tables `e` and `e'` say the same, part by part. -/
structure TableRewords (e e' : Doc) : Prop where
  known : HasOnly tableFields e'
  plain : Rewords ["table", "schema", "primary_key", "unique_keys"] e e'
  columns : PartsBy ColumnRewords (e.get "columns") (e'.get "columns")
  foreignKeys : PartsBy ForeignKeyRewords (e.get "foreign_keys") (e'.get "foreign_keys")
  indexes : PartsBy IndexRewords (e.get "indexes") (e'.get "indexes")
  checks : PartsBy (Rewords constraintFields) (e.get "checks") (e'.get "checks")
  triggers : PartsBy (Rewords triggerFields) (e.get "triggers") (e'.get "triggers")

/-- The views `e` and `e'` say the same, and so do their columns. -/
structure ViewRewords (e e' : Doc) : Prop where
  plain : Rewords ["name", "schema", "definition", "materialized"] e e'
  columns : PartsBy ColumnRewords (e.get "columns") (e'.get "columns")

/-- The snapshots `d` and `d'` say the same, definition by definition. They may have any other
sections. -/
structure SnapshotRewords (d d' : Doc) : Prop where
  plain : Rewords ["reserved_keywords"] d d'
  tables : PartsBy TableRewords (d.get "tables") (d'.get "tables")
  views : PartsBy ViewRewords (d.get "views") (d'.get "views")
  sequences : PartsBy (Rewords sequenceFields) (d.get "sequences") (d'.get "sequences")
  synonyms : PartsBy (Rewords synonymFields) (d.get "synonyms") (d'.get "synonyms")
  routines : PartsBy (Rewords routineFields) (d.get "routines") (d'.get "routines")

theorem readColumn_alike : ReadAlike ColumnRewords readColumn := by
  intro e e' c h hc
  have hplain := h.plain
  simp only [readColumn, bind_eq_ok_iff, require_eq_ok_iff] at hc ⊢
  obtain ⟨u, -, v, hname, w, htype, dataType, hdataType, counting, hcounting, hrest⟩ := hc
  rw [hplain.get "name" (by decide), hplain.get "type" (by decide),
    hplain.get "data_type" (by decide), hplain.get "default" (by decide),
    hplain.get "computed" (by decide), hplain.fieldOr "nullable" (by decide)]
  exact ⟨u, checkFields_eq_ok_iff.mpr h.known, v, hname, w, htype, dataType, hdataType, counting,
    readAutoIncrement_alike _ _ _ _ h.counting hcounting, hrest⟩

section Tables

variable (columns : List Column) (table : Identifier)

theorem readForeignKey_alike : ReadAlike ForeignKeyRewords (readForeignKey columns table) := by
  intro e e' k h hk
  have hplain := h.plain
  have hreference := h.reference
  simp only [readForeignKey, bind_eq_ok_iff, require_eq_ok_iff] at hk ⊢
  obtain ⟨u, -, hrest⟩ := hk
  rw [hplain.get "name" (by decide), hplain.get "columns" (by decide),
    hplain.get "on_update" (by decide), hplain.get "on_delete" (by decide),
    hplain.fieldOr "enabled" (by decide), hreference.get "table" (by decide),
    hreference.get "schema" (by decide), hreference.get "columns" (by decide)]
  exact ⟨u, checkFields_eq_ok_iff.mpr h.known, hrest⟩

theorem readIndex_alike : ReadAlike IndexRewords (readIndex columns table) := by
  intro e e' i h hi
  have hplain := h.plain
  obtain ⟨ds, ds', hds, hds', hwords⟩ := h.columns
  simp only [readIndex, bind_eq_ok_iff, mapM_eq_ok_iff] at hi ⊢
  obtain ⟨u, -, parts, hparts, indexColumns, hcolumns, hrest⟩ := hi
  obtain rfl := Except.ok.inj (hds.symm.trans hparts)
  rw [hplain.get "name" (by decide), hplain.get "include" (by decide),
    hplain.get "filter" (by decide), hplain.fieldOr "unique" (by decide),
    hplain.fieldOr "enabled" (by decide)]
  exact ⟨u, checkFields_eq_ok_iff.mpr h.known, ds', hds', indexColumns,
    readIndexColumn_alike.forall₂ hwords hcolumns, hrest⟩

end Tables

theorem readTable_alike : ReadAlike TableRewords readTable := by
  intro e e' dt h hdt
  have hplain := h.plain
  simp only [readTable, bind_eq_ok_iff, readColumns_eq_ok_iff] at hdt ⊢
  obtain ⟨u, -, name, hname, columns, ⟨hcolumns, hnames⟩, key, hkey, uniques, huniques, indexes,
    hindexes, checks, hchecks, triggers, htriggers, fks, hfks, hrest⟩ := hdt
  rw [hplain.readName "table" (by decide) (by decide), hplain.get "primary_key" (by decide),
    hplain.get "unique_keys" (by decide)]
  exact ⟨u, checkFields_eq_ok_iff.mpr h.known, name, hname, columns,
    ⟨readColumn_alike.readList h.columns hcolumns, hnames⟩, key, hkey, uniques, huniques, indexes,
    (readIndex_alike columns name).readList h.indexes hindexes, checks,
    readCheck_alike.readList h.checks hchecks, triggers,
    readTrigger_alike.readList h.triggers htriggers, fks,
    (readForeignKey_alike columns name).readList h.foreignKeys hfks, hrest⟩

theorem readView_alike : ReadAlike ViewRewords readView := by
  intro e e' v h hv
  have hplain := h.plain
  simp only [readView, bind_eq_ok_iff, require_eq_ok_iff] at hv ⊢
  obtain ⟨u, hmap, name, hname, columns, hcolumns, hrest⟩ := hv
  rw [hplain.isMap, hplain.readName "name" (by decide) (by decide),
    hplain.fieldOr "definition" (by decide), hplain.fieldOr "materialized" (by decide)]
  exact ⟨u, hmap, name, hname, columns, readColumn_alike.readList h.columns hcolumns, hrest⟩

theorem readDatabase_alike : ReadAlike SnapshotRewords readDatabase := by
  intro d d' db h hdb
  rw [readDatabase_eq_ok_iff] at hdb ⊢
  obtain ⟨hmap, ⟨es, ds, hes, hds, hlinked⟩, hviews, hsequences, hsynonyms, hroutines, hkeywords⟩ :=
    hdb
  obtain ⟨hread, hnames⟩ := readTables_eq_ok_iff.mp hds
  obtain ⟨es₀, es', hes₀, hes', htables⟩ := h.tables
  obtain rfl := Option.some.inj (hes₀.symm.trans hes)
  have hds' : readTables [] es' = .ok ds :=
    readTables_eq_ok_iff.mpr ⟨readTable_alike.forall₂ htables hread, hnames⟩
  -- the drafts of the tables are the same, so linking them gives the same tables
  rw [h.plain.isMap, h.plain.get "reserved_keywords" (by decide)]
  exact ⟨hmap, ⟨es', ds, hes', hds', hlinked⟩, readView_alike.readList h.views hviews,
    readSequence_alike.readList h.sequences hsequences,
    readSynonym_alike.readList h.synonyms hsynonyms,
    readRoutine_alike.readList h.routines hroutines, hkeywords⟩

/-! ### Files -/

theorem holds_of_load [Yaml.Library] {t : FileTree} {p : Path} {db : Database}
    (h : load t p = .ok db) : ∃ ds, Holds t p ds ∧ readDocuments ds = .ok db := by
  unfold load at h
  split at h
  · cases h
  · next ps hfiles =>
    obtain ⟨ds, hds, hdb⟩ := bind_eq_ok_iff.mp h
    exact ⟨ds, ⟨ps, hfiles, hds⟩, hdb⟩

theorem knownFields_of_readDocuments {ds : List Doc} {db : Database}
    (h : readDocuments ds = .ok db) :
    (∀ d ∈ ds, KnownFields d) ∧ readDatabase (combine ds) = .ok db := by
  obtain ⟨u, hu, hdb⟩ := bind_eq_ok_iff.mp h
  refine ⟨fun d hd => ?_, hdb⟩
  obtain ⟨v, hv, -⟩ := bind_eq_ok_iff.mp (forM_eq_ok_iff.mp hu d hd)
  exact requireKnown_eq_ok_iff.mp hv

/-- The first document with unknown sections is the end of loading. -/
theorem load_of_refusesUnknown [Yaml.Library] {t : FileTree} {p : Path} {before after : List Doc}
    (hds : Holds t p (before ++ d :: after)) (hbefore : ∀ b ∈ before, Accepted (checkSections b))
    (hd : RefusesUnknown sections (fun names => .snapshot (.unknownSections names)) d f) :
    load t p = .error f := by
  have hcheck : checkSections d = .error f :=
    bind_eq_of_error (requireKnown_eq_error_iff.mpr hd)
  rw [hds.load]
  exact bind_eq_of_error (forM_eq_error hcheck hbefore)

/-! ### Snapshots -/

/-- Where the unknown fields of a snapshot are refused, and where they are passed over. -/
structure FieldsCompared [Yaml.Library] (d : Doc) : Prop where
  /-- The tables, columns, keys, foreign keys and indexes of an accepted snapshot have known fields
  only. -/
  known : ∀ db, readDatabase d = .ok db → ComparedFields d
  /-- So it has no unknown field at all exactly if none is among those that are not compared. -/
  allKnown : ∀ db, readDatabase d = .ok db → (AllKnown d ↔ UncomparedKnown d)
  /-- Each of them is refused for unknown fields. -/
  table : ∀ e f, RefusesFields .table tableFields e f → readTable e = .error f
  column : ∀ e f, RefusesFields .column columnFields e f → readColumn e = .error f
  key : ∀ kind columns table e f,
    RefusesFields (keyDefinition kind) keyFields (keyMapping e) f →
      readKey kind columns table e = .error f
  foreignKey : ∀ columns table e f, RefusesFields .foreignKey foreignKeyFields e f →
    readForeignKey columns table e = .error f
  index : ∀ columns table e f, RefusesFields .index indexFields e f →
    readIndex columns table e = .error f
  /-- The files of an accepted snapshot have known sections only. -/
  sections : ∀ t p db, load t p = .ok db →
    ∃ ds, Holds t p ds ∧ (∀ d ∈ ds, KnownFields d) ∧ readDatabase (combine ds) = .ok db
  /-- The first file with unknown sections is refused for them. -/
  sectionsRefused : ∀ t p before d after f, Holds t p (before ++ d :: after) →
    (∀ b ∈ before, Accepted (checkSections b)) →
    RefusesUnknown Snapshot.sections (fun names => .snapshot (.unknownSections names)) d f →
      load t p = .error f
  /-- All other unknown fields, and unknown sections of the snapshot, are passed over. -/
  passedOver : ∀ d' db, SnapshotRewords d d' → readDatabase d = .ok db → readDatabase d' = .ok db

/-- **Unknown fields.** Tables, columns, keys, foreign keys and indexes with unknown fields are
refused, and so are files with unknown sections. In all other definitions unknown fields change
nothing. -/
theorem fields_compared [Yaml.Library] (d : Doc) : FieldsCompared d where
  known _ := comparedFields_of_readDatabase
  allKnown _ h := ⟨And.right, fun hothers => ⟨comparedFields_of_readDatabase h, hothers⟩⟩
  table _ _ h := bind_eq_of_error (checkFields_eq_error_iff.mpr h)
  column _ _ h := bind_eq_of_error (checkFields_eq_error_iff.mpr h)
  key _ _ _ _ _ h := bind_eq_of_error (checkFields_eq_error_iff.mpr h)
  foreignKey _ _ _ _ h := bind_eq_of_error (checkFields_eq_error_iff.mpr h)
  index _ _ _ _ h := bind_eq_of_error (checkFields_eq_error_iff.mpr h)
  sections t p db h := by
    obtain ⟨ds, hds, hread⟩ := holds_of_load h
    exact ⟨ds, hds, knownFields_of_readDocuments hread⟩
  sectionsRefused _ _ _ _ _ _ := load_of_refusesUnknown
  passedOver d' db h := readDatabase_alike d d' db h

/-! ### Misspelt fields -/

/-- A snapshot of a depot whose definitions that are not compared have some more fields. -/
def depot (more : List (Doc × Doc)) : Doc :=
  .map ([
    (.text "tables", .list [.map [
      (.text "table", .text "crate"),
      (.text "columns", .list [.map [
        (.text "name", .text "id"), (.text "type", .text "int"),
        (.text "autoincrement", .map ([(.text "initial", .int 7)] ++ more))]]),
      (.text "primary_key", .text "id"),
      (.text "foreign_keys", .list [.map [
        (.text "columns", .text "id"),
        (.text "references", .map ([(.text "table", .text "crate")] ++ more))]]),
      (.text "indexes", .list [.map [
        (.text "columns", .list [.map ([(.text "expression", .text "id")] ++ more)])]]),
      (.text "checks", .list [.map ([(.text "definition", .text "id > 0")] ++ more)]),
      (.text "triggers", .list [.map ([(.text "name", .text "log")] ++ more)])]]),
    (.text "views", .list [.map ([(.text "name", .text "full")] ++ more)]),
    (.text "sequences", .list [.map ([(.text "name", .text "ticket")] ++ more)]),
    (.text "synonyms", .list [.map
      ([(.text "name", .text "box"), (.text "target", .text "crate")] ++ more)]),
    (.text "routines", .list [.map ([(.text "name", .text "sweep")] ++ more)])] ++ more)

/-- Fields that are each misspelt by a letter. -/
def misspelt : List (Doc × Doc) :=
  [(.text "incremnt", .int 5), (.text "ordr", .text "desc"), (.text "enabld", .bool false),
    (.text "timming", .text "before"), (.text "materialised", .bool true),
    (.text "strat", .int 5), (.text "shema", .text "attic"), (.text "defintion", .text "none"),
    (.text "colums", .text "number"), (.text "tabels", .list [])]

theorem rewords_misspelt {fields : List String} {es : List (Doc × Doc)}
    (h : ∀ x ∈ misspelt, x.1 ∉ fields.map Doc.text) :
    Rewords fields (.map (es ++ [])) (.map (es ++ misspelt)) :=
  rewords_append (fun _ => nofun) h

/-- The misspelt fields are none of those that are read. -/
theorem depot_rewords : SnapshotRewords (depot []) (depot misspelt) where
  plain := .inr ⟨rfl, rfl, by decide +kernel⟩
  tables := by
    refine ⟨_, _, rfl, rfl, .cons ?_ .nil⟩
    exact {
      known := ⟨rfl, by decide +kernel⟩
      plain := .inr ⟨rfl, rfl, by decide +kernel⟩
      columns := ⟨_, _, rfl, rfl, .cons
        ⟨⟨rfl, by decide +kernel⟩, .inr ⟨rfl, rfl, by decide +kernel⟩,
          rewords_misspelt (by decide +kernel)⟩ .nil⟩
      foreignKeys := ⟨_, _, rfl, rfl, .cons
        ⟨⟨rfl, by decide +kernel⟩, .inr ⟨rfl, rfl, by decide +kernel⟩,
          rewords_misspelt (by decide +kernel)⟩ .nil⟩
      indexes := ⟨_, _, rfl, rfl, .cons
        ⟨⟨rfl, by decide +kernel⟩, .inr ⟨rfl, rfl, by decide +kernel⟩,
          _, _, rfl, rfl, .cons (rewords_misspelt (by decide +kernel)) .nil⟩ .nil⟩
      checks := ⟨_, _, rfl, rfl, .cons (rewords_misspelt (by decide +kernel)) .nil⟩
      triggers := ⟨_, _, rfl, rfl, .cons (rewords_misspelt (by decide +kernel)) .nil⟩ }
  views := ⟨_, _, rfl, rfl, .cons
    ⟨rewords_misspelt (by decide +kernel), _, _, rfl, rfl, .nil⟩ .nil⟩
  sequences := ⟨_, _, rfl, rfl, .cons (rewords_misspelt (by decide +kernel)) .nil⟩
  synonyms := ⟨_, _, rfl, rfl, .cons (rewords_misspelt (by decide +kernel)) .nil⟩
  routines := ⟨_, _, rfl, rfl, .cons (rewords_misspelt (by decide +kernel)) .nil⟩

/-- The depot is the same, whether these fields are there or not. -/
theorem depot_passedOver :
    SnapshotRewords (depot []) (depot misspelt) ∧
      ∃ db, readDatabase (depot []) = .ok db ∧ readDatabase (depot misspelt) = .ok db := by
  have haccepted : Accepted (readDatabase (depot [])) := by decide +kernel
  obtain ⟨db, hdb⟩ := haccepted
  exact ⟨depot_rewords, db, hdb, (fields_compared _).passedOver _ db depot_rewords hdb⟩

/-- The misspelt fields are unknown to all definitions that have them. The depot is accepted, and
has the defaults of the fields that are meant. -/
theorem depot_misspelt :
    ¬ AllKnown (depot misspelt) ∧
      (∀ fields ∈ uncomparedFields, ∀ es, ¬ HasOnly fields (.map (es ++ misspelt))) ∧
      ∃ db, readDatabase (depot misspelt) = .ok db ∧
        db.sequences.map (·.start) = [1] ∧ db.views.map (·.materialized) = [.bool false] ∧
        db.synonyms.map (·.name) = [.bare "box"] ∧ db.routines.map (·.definition) = [.text ""] ∧
        ∀ t ∈ db.tables, (∀ c ∈ t.columns, c.autoIncrement = some ⟨7, 1⟩) ∧
          (∀ c ∈ t.checks, c.enabled = .bool true) ∧ (∀ r ∈ t.triggers, r.timing = .after) ∧
          ∀ i ∈ t.indexes, ∀ c ∈ i.columns, c.direction = .ascending := by
  refine ⟨?_, ?_, by decide +kernel⟩
  · rintro ⟨-, hothers⟩
    have hsection := hothers.sections (.text "tabels") (by decide +kernel)
    revert hsection
    decide +kernel
  · intro fields hfields es h
    have hfield := h.2 (.text "incremnt") (by simp [Doc.entries, misspelt])
    have hunknown : ∀ fields ∈ uncomparedFields, Doc.text "incremnt" ∉ fields.map Doc.text := by
      decide +kernel
    exact hunknown fields hfields hfield

end SchemaAudit.Snapshot
