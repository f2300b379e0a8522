import SchemaAudit.Proofs.Dbml.References

/-!
# Tables of a snapshot that can be written

A snapshot may give an index any value for a name, and reading passes it on as it is. Writing wants
a text there, or something made of texts. All else that a document shows was made a text when the
snapshot was read, so these names alone decide whether the tables of a snapshot can be written.

- `IndexNamesTextual`: the names of the indexes in a snapshot are made of texts, where they matter.
- `document_result`: the tables of an accepted snapshot are written if these names are, and
  otherwise writing fails with a value of the wrong shape.
-/

namespace SchemaAudit.Dbml

/-! ### Failures of writing -/

theorem unquoteName_eq_error {name : Doc} {f : Failure} (h : unquoteName name = .error f) :
    f = .wrongShape := by
  unfold unquoteName at h
  split at h
  · exact (Except.error.inj h).symm
  · obtain ⟨-, part, -, -, -, hpart⟩ := mapM_eq_error_iff.mp (bind_ok_eq_error_iff.mp h)
    split at hpart
    · cases hpart
    · exact (Except.error.inj hpart).symm

theorem indexLine_eq_error {i : Index} {f : Failure} (h : indexLine i = .error f) :
    f = .wrongShape := by
  unfold indexLine at h
  split at h
  · cases h
  · have hname := bind_ok_eq_error_iff.mp h
    unfold nameOption at hname
    split at hname
    · exact unquoteName_eq_error (bind_ok_eq_error_iff.mp hname)
    · cases hname

theorem document_eq_error {ts : List Table} {f : Failure} (h : document ts = .error f) :
    f = .wrongShape := by
  obtain ⟨-, t, -, -, -, ht⟩ := mapM_eq_error_iff.mp (bind_ok_eq_error_iff.mp h)
  obtain ⟨-, i, -, -, -, hi⟩ := mapM_eq_error_iff.mp (bind_ok_eq_error_iff.mp ht)
  exact indexLine_eq_error hi

theorem accepted_document_iff {ts : List Table} :
    Accepted (document ts) ↔ ∀ t ∈ ts, IndexesWritable t := by
  unfold document
  simp only [accepted_bind_ok_iff, accepted_mapM_iff, accepted_tableLines_iff]

/-! ### Indexes of a snapshot -/

/-- A value is absent, or it is a text or has texts for its parts. -/
def Textual (d : Doc) : Prop :=
  ∃ parts, d.parts? = some parts ∧ ∀ p ∈ parts, ∃ s, p = .text s

/-- An index of a table definition is without columns, or its name can be written. -/
def IndexTextual (x : Doc) : Prop :=
  (x.get "columns").isPresent = true → Textual (x.get "name")

/-- The indexes in the table definitions of a snapshot have names that can be written. -/
def IndexNamesTextual (d : Doc) : Prop :=
  ∃ es, (d.get "tables").parts? = some es ∧ ∀ e ∈ es,
    ∃ xs, (e.get "indexes").parts? = some xs ∧ ∀ x ∈ xs, IndexTextual x

/-- The columns of an index are those that its definition lists, and its name is passed on. -/
theorem readIndex_spec {columns : List Column} {table : Identifier} {x : Doc} {i : Index}
    (h : Snapshot.readIndex columns table x = .ok i) :
    i.name = x.get "name" ∧ ∃ parts, Snapshot.readNames (x.get "columns") = .ok parts ∧
      i.columns.length = parts.length := by
  obtain ⟨hname, ⟨parts, keys, hparts, hkeys, hcolumns⟩, -⟩ := Snapshot.readIndex_reads h
  refine ⟨hname, parts, hparts, ?_⟩
  rw [hcolumns, List.length_map, hkeys.length_eq]

theorem readNames_ne_nil_iff {d : Doc} {ds : List Doc} (h : Snapshot.readNames d = .ok ds) :
    ds ≠ [] ↔ d.isPresent = true := by
  rw [Snapshot.readNames_eq_ok_iff] at h
  split at h
  · next hpresent =>
    exact ⟨fun _ => hpresent, fun _ hnil => Snapshot.asNames_items_ne_nil hpresent (hnil ▸ h)⟩
  · next habsent => exact ⟨fun hne => absurd h hne, fun hpresent => absurd hpresent habsent⟩

/-- An index gets no line, or its name can be written, exactly if this holds of its definition. -/
theorem indexTextual_iff {columns : List Column} {table : Identifier} {x : Doc} {i : Index}
    (h : Snapshot.readIndex columns table x = .ok i) :
    (i.columns ≠ [] → NameWritable i) ↔ IndexTextual x := by
  obtain ⟨hname, parts, hparts, hlength⟩ := readIndex_spec h
  have hcolumns : i.columns ≠ [] ↔ (x.get "columns").isPresent = true := by
    rw [← readNames_ne_nil_iff hparts, ← List.length_pos_iff, hlength, List.length_pos_iff]
  rw [hcolumns, NameWritable, hname]
  rfl

/-! ### Tables of a snapshot -/

theorem readTable_indexes {e : Doc} {d : Snapshot.Draft} (h : Snapshot.readTable e = .ok d) :
    ∃ xs, (e.get "indexes").parts? = some xs ∧
      List.Forall₂ (fun x i => Snapshot.readIndex d.table.columns d.table.name x = .ok i)
        xs d.table.indexes := by
  simp only [Snapshot.readTable, bind_eq_ok_iff, Except.ok.injEq] at h
  obtain ⟨-, -, name, -, cs, -, pk, -, us, -, is, his, ks, -, ts, -, fs, -, rfl⟩ := h
  exact Snapshot.readList_eq_ok_iff.mp his

theorem indexesWritable_iff {e : Doc} {d : Snapshot.Draft} (h : Snapshot.readTable e = .ok d) :
    IndexesWritable d.table ↔
      ∃ xs, (e.get "indexes").parts? = some xs ∧ ∀ x ∈ xs, IndexTextual x := by
  obtain ⟨xs, hxs, hread⟩ := readTable_indexes h
  have hindexes : IndexesWritable d.table ↔ ∀ x ∈ xs, IndexTextual x :=
    (forall_mem_iff_of_forall₂ (hread.imp fun _ _ hi => (indexTextual_iff hi).symm)).symm
  rw [hindexes, hxs]
  simp only [Option.some.injEq, exists_eq_left']

/-- **What can be written.** The tables of an accepted snapshot are written exactly if the names of
its indexes are texts, or made of texts. Where they are not, writing fails with a value of the wrong
shape, and in no other way. -/
theorem document_result {d : Doc} {db : Database} (h : Snapshot.readDatabase d = .ok db) :
    (Accepted (document db.tables) ↔ IndexNamesTextual d) ∧
      ∀ f, document db.tables = .error f → f = .wrongShape := by
  refine ⟨?_, fun f => document_eq_error⟩
  obtain ⟨es, ds, hes, hdrafted, htables⟩ := Snapshot.drafted_of_readDatabase h
  -- linking changes the keys of the tables and leaves their indexes alone
  have hlinked : (∀ t ∈ db.tables, IndexesWritable t) ↔ ∀ t ∈ ds, IndexesWritable t.table := by
    rw [htables, List.forall_mem_map]
    rfl
  rw [accepted_document_iff, hlinked, IndexNamesTextual, hes]
  simp only [Option.some.injEq, exists_eq_left']
  exact (forall_mem_iff_of_forall₂
    (hdrafted.read.imp fun _ _ he => (indexesWritable_iff he).symm)).symm

/-- A snapshot of holidays. Their index by day has the given name, and an index without columns has
a number for a name. -/
def holidays (indexName : Doc) : Doc :=
  Snapshot.staff [.map [(.text "table", .text "holiday"),
    (.text "columns", .list [.map [(.text "name", .text "day"), (.text "type", .text "date")]]),
    (.text "indexes", .list [.map [(.text "name", .int 7)],
      .map [(.text "name", indexName), (.text "columns", .list [.text "day"])]])]]

/-- The document of the holidays. -/
def holidaysDocument : String :=
  String.intercalate "\n" [
    "Table holiday \x7b",
    "    day date [null]",
    "",
    "    Indexes \x7b",
    "        day [name: 'by day']",
    "    \x7d",
    "\x7d"]

/-- A name that is a list of texts is written, and the number of the index without columns is not
looked at. -/
theorem holidays_written :
    ∃ db, Snapshot.readDatabase (holidays (.list [.text "by ", .text "day"])) = .ok db ∧
      document db.tables = .ok holidaysDocument ∧
      IndexNamesTextual (holidays (.list [.text "by ", .text "day"])) := by
  have hwritten : ∃ db,
      Snapshot.readDatabase (holidays (.list [.text "by ", .text "day"])) = .ok db ∧
        document db.tables = .ok holidaysDocument := by
    decide +kernel
  obtain ⟨db, hdb, htext⟩ := hwritten
  exact ⟨db, hdb, htext, (document_result hdb).1.mp ⟨_, htext⟩⟩

/-- An index named by a year: the snapshot is accepted, and its table cannot be written. -/
theorem holidays_refused :
    ∃ db, Snapshot.readDatabase (holidays (.int 2024)) = .ok db ∧
      document db.tables = .error .wrongShape := by
  decide +kernel

end SchemaAudit.Dbml
