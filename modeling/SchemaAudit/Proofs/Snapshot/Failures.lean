import SchemaAudit.Proofs.Doc.Occurrence
import SchemaAudit.Proofs.Snapshot.Linking

/-!
# How the reading of a snapshot fails

Whatever the document of a snapshot holds, and wherever it holds it, reading ends with a database,
with a fault of the snapshot, or with one of three other failures that have their cause in the
document: a value of the wrong shape, an infinite number, or an integer without a text.

- `Cause`: what a failure of a reader says of the document that is read.
- `FailsBy`: all failures of a reading have their cause in a document. It holds of one reading after
  the other and of the readings of parts, so every reader has one law: it fails by what it reads.
- `readDatabase_outcome`: the ends of reading a snapshot.

The fault that a reader makes shows some of the values that it read. A fault that shows an integer
without a text cannot be told, which is why `Cause` follows the values of a fault, too.
-/

namespace SchemaAudit.Snapshot

/-- The failure of a reader has its cause in the document `d`. -/
def Cause (d : Doc) : Failure → Prop
  | .snapshot fault => ∀ v ∈ fault.values, v.DrawnFrom d
  | .wrongShape => True
  | .notFinite => ∃ negative, Doc.Occurs (.float (.infinite negative)) d
  | .unwritable => ∃ n, Number.isWritable n = false ∧ Doc.Occurs (.int n) d
  | _ => False

/-- A document has the causes that a document drawn from it has. -/
theorem Cause.mono {d e : Doc} {f : Failure} (h : Cause e f) (hd : e.DrawnFrom d) : Cause d f := by
  cases f with
  | snapshot fault => exact fun v hv => (h v hv).trans hd
  | wrongShape => trivial
  | notFinite =>
    obtain ⟨negative, hoccurs⟩ := h
    exact ⟨negative, hd _ trivial hoccurs⟩
  | unwritable =>
    obtain ⟨n, hn, hoccurs⟩ := h
    exact ⟨n, hn, hd _ hn hoccurs⟩
  | _ => exact h.elim

/-- A fault that shows nothing has its cause in any document. -/
theorem cause_of_silent {d : Doc} {fault : SnapshotFault} (h : fault.values = []) :
    Cause d (.snapshot fault) := by
  intro v hv
  rw [h] at hv
  exact absurd hv List.not_mem_nil

/-- A fault that shows one value has its cause where the value is drawn from. -/
theorem cause_of_value {d v : Doc} {fault : SnapshotFault} (h : fault.values = [v])
    (hv : v.DrawnFrom d) : Cause d (.snapshot fault) := by
  intro w hw
  rw [h] at hw
  rwa [List.mem_singleton.mp hw]

/-! ### Readings -/

/-- All failures of a reading have their cause in the document `d`. -/
def FailsBy {α : Type} (d : Doc) (x : Except Failure α) : Prop :=
  ∀ f, x = .error f → Cause d f

namespace FailsBy

variable {α β : Type} {d e : Doc}

theorem ok (a : α) : FailsBy d (.ok a : Except Failure α) := nofun

theorem error {f : Failure} (h : Cause d f) : FailsBy d (.error f : Except Failure α) := by
  rintro g ⟨⟩
  exact h

theorem mono {x : Except Failure α} (h : FailsBy e x) (hd : e.DrawnFrom d) : FailsBy d x :=
  fun f hf => (h f hf).mono hd

theorem bind {x : Except Failure α} {g : α → Except Failure β} (hx : FailsBy d x)
    (hg : ∀ a, x = .ok a → FailsBy d (g a)) : FailsBy d (x >>= g) := by
  cases x with
  | error f => exact error (hx f rfl)
  | ok a => exact hg a rfl

theorem mapM {f : α → Except Failure β} :
    ∀ {as : List α}, (∀ a ∈ as, FailsBy d (f a)) → FailsBy d (as.mapM f)
  | [], _ => ok []
  | a :: as, h => by
    rw [List.mapM_cons]
    refine bind (h a List.mem_cons_self) fun b _ => ?_
    exact bind (mapM fun c hc => h c (List.mem_cons_of_mem a hc)) fun bs _ => ok (b :: bs)

theorem forM {f : α → Except Failure Unit} :
    ∀ {as : List α}, (∀ a ∈ as, FailsBy d (f a)) → FailsBy d (as.forM f)
  | [], _ => ok ()
  | a :: as, h => by
    show FailsBy d (f a >>= fun _ => as.forM f)
    exact bind (h a List.mem_cons_self) fun _ _ =>
      forM fun b hb => h b (List.mem_cons_of_mem a hb)

theorem foldlM {f : β → α → Except Failure β} :
    ∀ {as : List α} {b : β}, (∀ a ∈ as, ∀ b, FailsBy d (f b a)) → FailsBy d (as.foldlM f b)
  | [], b, _ => ok b
  | a :: as, b, h => by
    rw [List.foldlM_cons]
    refine bind (h a List.mem_cons_self b) fun c _ => ?_
    exact foldlM fun a' ha' => h a' (List.mem_cons_of_mem a ha')

end FailsBy

/-! ### Fields -/

variable {d : Doc}

theorem failsBy_require {holds : Bool} {fault : SnapshotFault} (h : Cause d (.snapshot fault)) :
    FailsBy d (require holds fault) := by
  cases holds with
  | true => exact .ok ()
  | false => exact .error h

theorem failsBy_keyTexts (keys : List Doc) : FailsBy d (Doc.keyTexts keys) := by
  refine .mapM fun k _ => ?_
  cases k with
  | text s => exact .ok s
  | _ => exact .error trivial

theorem failsBy_requireKnown {known : List String} {fault : List String → Failure}
    (h : ∀ names, Cause d (fault names)) : FailsBy d (d.requireKnown known fault) := by
  unfold Doc.requireKnown
  split
  · exact .ok ()
  · exact .bind (failsBy_keyTexts _) fun names _ => .error (h _)

theorem failsBy_checkFields (kind : Definition) (known : List String) (d : Doc) :
    FailsBy d (checkFields kind known d) := by
  refine .bind (failsBy_require (cause_of_value rfl (.refl d))) fun _ _ => ?_
  exact failsBy_requireKnown fun names => cause_of_silent rfl

theorem failsBy_readParts (d e : Doc) : FailsBy d (readParts e) := by
  unfold readParts
  split
  · exact .ok _
  · exact .error trivial

/-- A list is read by reading its parts, which are drawn from it. -/
theorem failsBy_readList {α : Type} {read : Doc → Except Failure α}
    (h : ∀ e, FailsBy e (read e)) (d : Doc) : FailsBy d (readList read d) := by
  refine .bind (failsBy_readParts d d) fun ds hds => ?_
  refine .mapM fun e he => ?_
  exact (h e).mono (Doc.drawnFrom_of_mem_parts (readParts_eq_ok_iff.mp hds) he)

theorem failsBy_readNames (d e : Doc) : FailsBy d (readNames e) := by
  unfold readNames
  split
  · exact failsBy_readParts d _
  · exact .ok []

theorem drawnFrom_of_mem_readNames {ds : List Doc} (h : readNames d = .ok ds) {e : Doc}
    (he : e ∈ ds) : e.DrawnFrom d := by
  rw [readNames_eq_ok_iff] at h
  split at h
  · exact (Doc.drawnFrom_of_mem_items h he).trans (Doc.drawnFrom_asNames d)
  · obtain rfl := h
    exact absurd he List.not_mem_nil

/-- A value without a text holds an integer without one. -/
theorem cause_of_not_isWritable {d : Doc} (h : d.isWritable = false) : Cause d .unwritable := by
  by_contra hnone
  refine absurd ((Doc.isWritable_iff d).mpr fun n hn => ?_) (by simp [h])
  by_contra hwritable
  exact hnone ⟨n, Bool.eq_false_iff.mpr hwritable, hn⟩

theorem failsBy_write (d : Doc) : FailsBy d d.write := by
  unfold Doc.write
  split
  · exact .ok _
  · next h => exact .error (cause_of_not_isWritable (Bool.eq_false_iff.mpr h))

theorem failsBy_docReadInteger {other : Failure} (h : Cause d other) :
    FailsBy d (d.readInteger other) := by
  cases d with
  | int n => exact .ok n
  | bool b => exact .ok _
  | float x =>
    cases x with
    | nan => exact .error h
    | infinite negative => exact .error ⟨negative, .here⟩
    | finite => exact .ok _
  | text s =>
    dsimp only [Doc.readInteger]
    split
    · exact .ok _
    · exact .error h
  | _ => exact .error h

theorem failsBy_readInteger (owner field : String) (d : Doc) :
    FailsBy d (readInteger owner field d) := by
  have hfault : Cause d (.snapshot (.notInteger owner field d)) := cause_of_value rfl (.refl d)
  exact .bind (failsBy_require hfault) fun _ _ => failsBy_docReadInteger hfault

theorem failsBy_readOptionalInteger (owner field : String) (d : Doc) :
    FailsBy d (readOptionalInteger owner field d) := by
  unfold readOptionalInteger
  split
  · exact .ok none
  · exact .bind (failsBy_readInteger owner field d) fun n _ => .ok (some n)

theorem failsBy_makeIdentifier (localName : String) (schema : Doc) :
    FailsBy schema (makeIdentifier localName schema) := by
  refine .bind (failsBy_write schema) fun text _ => ?_
  dsimp only
  generalize Identifier.ofFields _ _ _ _ = name
  cases name with
  | ok name => exact .ok name
  | error fault => exact .error (cause_of_silent rfl)

theorem failsBy_readName (kind : Definition) (field : String) (d : Doc) :
    FailsBy d (readName kind field d) := by
  refine .bind (failsBy_require (cause_of_silent rfl)) fun _ _ => ?_
  refine .bind ((failsBy_write _).mono (d.drawnFrom_get field)) fun localName _ => ?_
  refine .bind (failsBy_require (cause_of_silent rfl)) fun _ _ => ?_
  exact (failsBy_makeIdentifier localName _).mono (d.drawnFrom_get "schema")

/-! ### Columns -/

theorem failsBy_readDataType {column given definition : Doc} (hcolumn : column.DrawnFrom d)
    (hgiven : given.DrawnFrom d) (hdefinition : definition.DrawnFrom d) :
    FailsBy d (readDataType column given definition) := by
  unfold readDataType
  split
  · split
    · exact .ok _
    · refine .error fun v hv => ?_
      rcases List.mem_cons.mp hv with rfl | hv
      · exact hcolumn
      · rwa [List.mem_singleton.mp hv]
  · exact .bind ((failsBy_write definition).mono hdefinition) fun text _ => .ok _

theorem failsBy_readAutoIncrement {column value : Doc} (hcolumn : column.DrawnFrom d)
    (hvalue : value.DrawnFrom d) : FailsBy d (readAutoIncrement column value) := by
  have hfield : ∀ name, (fieldOr value name (.int 1)).DrawnFrom d := fun name =>
    (Doc.drawnFrom_fieldOr name (Doc.drawnFrom_int rfl value)).trans hvalue
  unfold readAutoIncrement
  split
  · exact .ok _
  · refine .bind ((failsBy_write column).mono hcolumn) fun name _ => ?_
    refine .bind ((failsBy_readInteger _ _ _).mono (hfield "initial")) fun initial _ => ?_
    refine .bind ((failsBy_readInteger _ _ _).mono (hfield "increment")) fun increment _ => ?_
    exact .ok _
  · exact .ok none

theorem failsBy_readColumn (d : Doc) : FailsBy d (readColumn d) := by
  have hget := d.drawnFrom_get
  refine .bind (failsBy_checkFields .column columnFields d) fun _ _ => ?_
  refine .bind (failsBy_require (cause_of_silent rfl)) fun _ _ => ?_
  refine .bind (failsBy_require (cause_of_value rfl (hget "name"))) fun _ _ => ?_
  refine .bind (failsBy_readDataType (hget _) (hget _) (hget _)) fun dataType _ => ?_
  refine .bind (failsBy_readAutoIncrement (hget _) (hget _)) fun autoIncrement _ => ?_
  refine .bind ((failsBy_write _).mono (hget "name")) fun name _ => ?_
  refine .bind ((failsBy_write _).mono (hget "type")) fun definition _ => ?_
  exact .bind ((failsBy_write _).mono (hget "default")) fun default _ => .ok _

theorem failsBy_readColumns (table : Identifier) (d : Doc) : FailsBy d (readColumns table d) := by
  refine .bind (failsBy_readList failsBy_readColumn d) fun columns _ => ?_
  split
  · exact .error (cause_of_silent rfl)
  · exact .ok columns

theorem failsBy_lookupColumn (columns : List Column) (kind : Definition) (table : Identifier)
    (name : Doc) : FailsBy name (lookupColumn columns kind table name) := by
  unfold lookupColumn
  split
  · split
    · exact .ok _
    · exact .error (cause_of_value rfl (.refl name))
  · exact .error trivial

theorem failsBy_resolveColumns (columns : List Column) (kind : Definition) (table : Identifier)
    (names : Doc) : FailsBy names (resolveColumns columns kind table names) := by
  refine .bind (failsBy_require (cause_of_silent rfl)) fun _ _ => ?_
  exact (failsBy_readList (failsBy_lookupColumn columns kind table) _).mono
    (Doc.drawnFrom_asNames names)

/-! ### Keys and indexes -/

theorem drawnFrom_keyMapping (d : Doc) : (keyMapping d).DrawnFrom d := by
  have hcolumns : ∀ d : Doc, (Doc.map [(.text "columns", d)]).DrawnFrom d := by
    intro d x hx h
    rcases Doc.occurs_map_iff.mp h with rfl | ⟨e, he, h⟩
    · exact absurd hx id
    · obtain rfl := List.mem_singleton.mp he
      exact h.elim (Doc.drawnFrom_text _ d x hx) id
  cases d with
  | list ds => exact hcolumns _
  | text s => exact hcolumns _
  | _ => exact .refl _

theorem failsBy_readKey (kind : KeyKind) (columns : List Column) (table : Identifier) (d : Doc) :
    FailsBy d (readKey kind columns table d) := by
  have hmapping := drawnFrom_keyMapping d
  refine .bind ((failsBy_checkFields _ _ _).mono hmapping) fun _ _ => ?_
  refine .bind ?_ fun keyColumns _ => .ok _
  exact (failsBy_resolveColumns _ _ _ _).mono ((Doc.drawnFrom_get _ _).trans hmapping)

theorem failsBy_readPrimaryKey (columns : List Column) (table : Identifier) (d : Doc) :
    FailsBy d (readPrimaryKey columns table d) := by
  unfold readPrimaryKey
  split
  · exact .bind (failsBy_readKey .primary columns table d) fun k _ => .ok (some k)
  · exact .ok none

theorem failsBy_readAction (table : Identifier) (d : Doc) : FailsBy d (readAction table d) := by
  unfold readAction
  split
  · exact .ok _
  · split
    · exact .ok _
    · exact .error (cause_of_value rfl (.refl d))

theorem failsBy_readForeignKey (columns : List Column) (table : Identifier) (d : Doc) :
    FailsBy d (readForeignKey columns table d) := by
  have hget := d.drawnFrom_get
  have hreferences : ∀ name, ((d.get "references").get name).DrawnFrom d := fun name =>
    (Doc.drawnFrom_get _ name).trans (hget "references")
  refine .bind (failsBy_checkFields .foreignKey foreignKeyFields d) fun _ _ => ?_
  refine .bind ((failsBy_resolveColumns _ _ _ _).mono (hget "columns")) fun keyColumns _ => ?_
  refine .bind (failsBy_require (cause_of_silent rfl)) fun _ _ => ?_
  refine .bind ((failsBy_write _).mono (hreferences "table")) fun parentName _ => ?_
  refine .bind ((failsBy_makeIdentifier _ _).mono (hreferences "schema")) fun parentTable _ => ?_
  refine .bind (failsBy_readNames d _) fun parentColumns _ => ?_
  refine .bind ((failsBy_readAction _ _).mono (hget "on_update")) fun onUpdate _ => ?_
  exact .bind ((failsBy_readAction _ _).mono (hget "on_delete")) fun onDelete _ => .ok _

theorem failsBy_readDirection (word : String) : FailsBy d (readDirection word) := by
  unfold readDirection
  dsimp only
  split
  · exact .ok _
  · split
    · exact .ok _
    · exact .error (cause_of_silent rfl)

theorem failsBy_indexColumnTexts (d : Doc) : FailsBy d (indexColumnTexts d) := by
  have hfield : ∀ name word, (fieldOr d name (.text word)).DrawnFrom d := fun name word =>
    Doc.drawnFrom_fieldOr name (Doc.drawnFrom_text word d)
  unfold indexColumnTexts
  split
  · refine .bind ((failsBy_write _).mono (hfield "expression" "")) fun expression _ => ?_
    exact .bind ((failsBy_write _).mono (hfield "order" "asc")) fun order _ => .ok _
  · exact .bind (failsBy_write d) fun text _ => .ok _

theorem failsBy_readIndexColumn (d : Doc) : FailsBy d (readIndexColumn d) := by
  refine .bind (failsBy_indexColumnTexts d) fun texts _ => ?_
  refine .bind (failsBy_require (cause_of_value rfl (.refl d))) fun _ _ => ?_
  exact .bind (failsBy_readDirection texts.2) fun direction _ => .ok _

theorem failsBy_readIndex (columns : List Column) (table : Identifier) (d : Doc) :
    FailsBy d (readIndex columns table d) := by
  have hget := d.drawnFrom_get
  refine .bind (failsBy_checkFields .index indexFields d) fun _ _ => ?_
  refine .bind (failsBy_readNames d _) fun parts hparts => ?_
  refine .bind (.mapM fun e he => (failsBy_readIndexColumn e).mono ?_) fun indexColumns _ => ?_
  · exact (drawnFrom_of_mem_readNames hparts he).trans (hget "columns")
  dsimp only
  split
  · refine .bind ?_ fun included _ => .ok _
    exact (failsBy_resolveColumns _ _ _ _).mono (hget "include")
  · exact .bind (.ok []) fun included _ => .ok _

/-! ### Tables -/

theorem failsBy_readCheck (d : Doc) : FailsBy d (readCheck d) :=
  .bind (failsBy_require (cause_of_value rfl (.refl d))) fun _ _ => .ok _

theorem failsBy_readTiming {trigger value : Doc} (h : trigger.DrawnFrom d) :
    FailsBy d (readTiming trigger value) := by
  unfold readTiming
  split
  · exact .ok _
  · exact .error (cause_of_value rfl h)

theorem failsBy_addEvent {trigger value : Doc} (htrigger : trigger.DrawnFrom d)
    (hvalue : value.DrawnFrom d) (events : Events) : FailsBy d (addEvent trigger events value) := by
  unfold addEvent
  dsimp only
  repeat' split
  iterate 4 exact .ok _
  refine .error fun v hv => ?_
  rcases List.mem_cons.mp hv with rfl | hv
  · exact htrigger
  · rwa [List.mem_singleton.mp hv]

theorem failsBy_readTrigger (d : Doc) : FailsBy d (readTrigger d) := by
  have hget := d.drawnFrom_get
  refine .bind (failsBy_require (cause_of_value rfl (.refl d))) fun _ _ => ?_
  refine .bind (failsBy_readTiming (hget "name")) fun timing _ => ?_
  refine .bind (failsBy_readNames d _) fun parts hparts => ?_
  refine .bind ?_ fun events _ => .ok _
  refine .foldlM fun e he events => failsBy_addEvent (hget "name") ?_ events
  exact (drawnFrom_of_mem_readNames hparts he).trans (hget "events")

theorem failsBy_readTable (d : Doc) : FailsBy d (readTable d) := by
  have hget := d.drawnFrom_get
  refine .bind (failsBy_checkFields .table tableFields d) fun _ _ => ?_
  refine .bind (failsBy_readName .table "table" d) fun name _ => ?_
  refine .bind ((failsBy_readColumns name _).mono (hget "columns")) fun columns _ => ?_
  refine .bind ((failsBy_readPrimaryKey _ _ _).mono (hget "primary_key")) fun primaryKey _ => ?_
  refine .bind ((failsBy_readList (failsBy_readKey _ _ _) _).mono (hget "unique_keys"))
    fun uniqueKeys _ => ?_
  refine .bind ((failsBy_readList (failsBy_readIndex _ _) _).mono (hget "indexes"))
    fun indexes _ => ?_
  refine .bind ((failsBy_readList failsBy_readCheck _).mono (hget "checks")) fun checks _ => ?_
  refine .bind ((failsBy_readList failsBy_readTrigger _).mono (hget "triggers"))
    fun triggers _ => ?_
  exact .bind ((failsBy_readList (failsBy_readForeignKey _ _) _).mono (hget "foreign_keys"))
    fun foreignKeys _ => .ok _

theorem failsBy_readTables :
    ∀ {es : List Doc} {seen : List Identifier}, (∀ e ∈ es, e.DrawnFrom d) →
      FailsBy d (readTables seen es)
  | [], _, _ => .ok []
  | e :: es, _, h => by
    refine .bind ((failsBy_readTable e).mono (h e List.mem_cons_self)) fun draft _ => ?_
    refine .bind (failsBy_require (cause_of_silent rfl)) fun _ _ => ?_
    exact .bind (failsBy_readTables fun c hc => h c (List.mem_cons_of_mem e hc))
      fun drafts _ => .ok _

/-! ### Links

Linking reads no document any more. What it refuses shows no values, and the columns of a foreign
key that it cannot list are of the wrong shape. -/

theorem failsBy_findParentKey (parent : Table) (columns : List Doc) :
    FailsBy d (findParentKey parent columns) := by
  unfold findParentKey
  split
  · split
    · exact .ok _
    · exact .error (cause_of_silent rfl)
  · split
    · exact .ok _
    · exact .bind (failsBy_keyTexts _) fun names _ => .error (cause_of_silent rfl)

theorem failsBy_resolveForeignKey (tables : List Table) (child : Table) (f : ForeignKey) :
    FailsBy d (resolveForeignKey tables child f) := by
  unfold resolveForeignKey
  split
  · refine .bind (failsBy_findParentKey _ _) fun parentKey _ => ?_
    exact .bind (failsBy_require (cause_of_silent rfl)) fun _ _ => .ok _
  · exact .error (cause_of_silent rfl)

theorem failsBy_linkTables (drafts : List Draft) : FailsBy d (linkTables drafts) := by
  refine .bind ?_ fun links _ => .ok _
  refine .foldlM fun draft _ links => .foldlM fun f _ links => ?_
  exact .bind (failsBy_resolveForeignKey _ _ f) fun r _ => .ok _

/-! ### Snapshots -/

theorem failsBy_readView (d : Doc) : FailsBy d (readView d) := by
  refine .bind (failsBy_require (cause_of_value rfl (.refl d))) fun _ _ => ?_
  refine .bind (failsBy_readName .view "name" d) fun name _ => ?_
  exact .bind ((failsBy_readList failsBy_readColumn _).mono (d.drawnFrom_get "columns"))
    fun columns _ => .ok _

theorem failsBy_readSequence (d : Doc) : FailsBy d (readSequence d) := by
  have hfield : ∀ name n, Number.isWritable n = true → (fieldOr d name (.int n)).DrawnFrom d :=
    fun name n hn => Doc.drawnFrom_fieldOr name (Doc.drawnFrom_int hn d)
  refine .bind (failsBy_require (cause_of_value rfl (.refl d))) fun _ _ => ?_
  refine .bind (failsBy_readName .sequence "name" d) fun name _ => ?_
  refine .bind ((failsBy_readInteger _ _ _).mono (hfield "start" 1 rfl)) fun start _ => ?_
  refine .bind ((failsBy_readInteger _ _ _).mono (hfield "increment" 1 rfl)) fun increment _ => ?_
  refine .bind ((failsBy_readOptionalInteger _ _ _).mono (d.drawnFrom_get "min_value"))
    fun minValue _ => ?_
  refine .bind ((failsBy_readOptionalInteger _ _ _).mono (d.drawnFrom_get "max_value"))
    fun maxValue _ => ?_
  exact .bind ((failsBy_readInteger _ _ _).mono (hfield "cache" 0 rfl)) fun cache _ => .ok _

theorem failsBy_readSynonym (d : Doc) : FailsBy d (readSynonym d) := by
  have hget := d.drawnFrom_get
  refine .bind (failsBy_require (cause_of_value rfl (.refl d))) fun _ _ => ?_
  refine .bind (failsBy_require (cause_of_value rfl (hget "name"))) fun _ _ => ?_
  refine .bind (failsBy_readName .synonym "name" d) fun name _ => ?_
  refine .bind ((failsBy_write _).mono (hget "target")) fun text _ => ?_
  split
  · exact .ok _
  · exact .error (cause_of_value rfl (hget "target"))

theorem failsBy_readRoutine (d : Doc) : FailsBy d (readRoutine d) := by
  refine .bind (failsBy_require (cause_of_value rfl (.refl d))) fun _ _ => ?_
  exact .bind (failsBy_readName .routine "name" d) fun name _ => .ok _

theorem failsBy_readKeyword (d : Doc) : FailsBy d (readKeyword d) := by
  cases d with
  | text s => exact .ok s
  | _ => exact .error (cause_of_silent rfl)

theorem failsBy_readSections (hmap : d.isMap = true) : FailsBy d (readSections d) := by
  have hget := d.drawnFrom_get
  unfold readSections
  rw [if_pos hmap]
  refine .bind (.ok ()) fun _ _ => ?_
  refine .bind (failsBy_readParts d _) fun es hes => ?_
  refine .bind (failsBy_readTables fun e he => ?_) fun drafts _ => ?_
  · exact (Doc.drawnFrom_of_mem_parts (readParts_eq_ok_iff.mp hes) he).trans (hget "tables")
  refine .bind (failsBy_linkTables drafts) fun tables _ => ?_
  refine .bind ((failsBy_readList failsBy_readView _).mono (hget "views")) fun views _ => ?_
  refine .bind ((failsBy_readList failsBy_readSequence _).mono (hget "sequences"))
    fun sequences _ => ?_
  refine .bind ((failsBy_readList failsBy_readSynonym _).mono (hget "synonyms"))
    fun synonyms _ => ?_
  refine .bind ((failsBy_readList failsBy_readRoutine _).mono (hget "routines"))
    fun routines _ => ?_
  exact .bind ((failsBy_readList failsBy_readKeyword _).mono (hget "reserved_keywords"))
    fun keywords _ => .ok _

/-- A fault that shows an integer without a text is told as a failure that has its cause there. -/
theorem Cause.told {f : Failure} (h : Cause d f) : Cause d f.told := by
  unfold Failure.told
  split
  · exact h
  · next hvalues =>
    rw [List.all_eq_true] at hvalues
    push Not at hvalues
    obtain ⟨v, hv, hwritable⟩ := hvalues
    have hdrawn : v.DrawnFrom d := by
      cases f with
      | snapshot fault => exact h v hv
      | settings => exact h.elim
      | _ => exact absurd hv List.not_mem_nil
    exact (cause_of_not_isWritable (Bool.eq_false_iff.mpr hwritable)).mono hdrawn

theorem failsBy_readDatabase (hmap : d.isMap = true) : FailsBy d (readDatabase d) := by
  intro f hf
  unfold readDatabase at hf
  cases hread : readSections d with
  | ok db =>
    rw [hread] at hf
    cases hf
  | error g =>
    rw [hread] at hf
    obtain rfl := Except.error.inj hf
    exact (failsBy_readSections hmap g hread).told

/-- **How reading ends.** A snapshot is accepted, or refused with a fault of its own, or some value
in it has the wrong shape, or an infinite number stands in it where an integer is read. Nothing else
happens, unless an integer stands in the snapshot that has no text. -/
theorem readDatabase_outcome {d : Doc} (hmap : d.isMap = true) :
    Accepted (readDatabase d) ∨
      (∃ fault, readDatabase d = .error (.snapshot fault)) ∨
      readDatabase d = .error .wrongShape ∨
      (readDatabase d = .error .notFinite ∧
        ∃ negative, Doc.Occurs (.float (.infinite negative)) d) ∨
      (readDatabase d = .error .unwritable ∧
        ∃ n, Number.isWritable n = false ∧ Doc.Occurs (.int n) d) := by
  cases hread : readDatabase d with
  | ok db => exact .inl ⟨db, rfl⟩
  | error f =>
    have hcause := failsBy_readDatabase hmap f hread
    cases f with
    | snapshot fault => exact .inr (.inl ⟨fault, rfl⟩)
    | wrongShape => exact .inr (.inr (.inl rfl))
    | notFinite => exact .inr (.inr (.inr (.inl ⟨rfl, hcause⟩)))
    | unwritable => exact .inr (.inr (.inr (.inr ⟨rfl, hcause⟩)))
    | _ => exact hcause.elim

/-- A table of tickets whose numbers count up from the given value. -/
def tickets (initial : Doc) : Doc :=
  staff [.map [(.text "table", .text "ticket"), (.text "columns", .list [
    .map [(.text "name", .text "number"), (.text "type", .text "int"),
      (.text "autoincrement", .map [(.text "initial", initial)])]])]]

/-- Tickets that count up from below all numbers. -/
theorem tickets_outcome :
    (tickets (.float (.infinite true))).isMap = true ∧
      readDatabase (tickets (.float (.infinite true))) = .error .notFinite ∧
      ∃ negative, Doc.Occurs (.float (.infinite negative)) (tickets (.float (.infinite true))) := by
  have hend : readDatabase (tickets (.float (.infinite true))) = .error .notFinite := by
    decide +kernel
  refine ⟨rfl, hend, ?_⟩
  rcases readDatabase_outcome (d := tickets (.float (.infinite true))) rfl with
    ⟨db, h⟩ | ⟨fault, h⟩ | h | ⟨-, h⟩ | ⟨h, -⟩
  · cases hend.symm.trans h
  · cases hend.symm.trans h
  · cases hend.symm.trans h
  · exact h
  · cases hend.symm.trans h

end SchemaAudit.Snapshot
