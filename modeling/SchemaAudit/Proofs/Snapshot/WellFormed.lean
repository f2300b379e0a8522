import SchemaAudit.Proofs.Keyed
import SchemaAudit.Proofs.Snapshot.Linking

/-!
# Tables that are made of their own columns

The keys and indexes of a table hold the columns that they are made of, and all rules rely on these
being columns of the table. The definitions come in short and in long forms, and an index may be
over expressions that are no columns. The main statement is that no form leads around the columns
of the table.

- `PickedFrom`: some columns, all of them from a list.
- `IndexColumn.LinkedIn`: an index column that is linked to the column that its expression names.
- `Table.WellFormed`: a table is made of its own columns.
- `readIndex_reads`: what an index has from its definition.
- `readTable_wellFormed`, `linked_wellFormed`: this holds of every table that is read, and linking
  keeps it.
-/

namespace SchemaAudit

/-- There are columns, and all of them are among the given ones. -/
structure PickedFrom (columns picked : List Column) : Prop where
  ne_nil : picked ≠ []
  subset : ∀ c ∈ picked, c ∈ columns

/-- An index column is linked to the one of the given columns that has its expression as a name, and
to nothing if there is none. -/
def IndexColumn.LinkedIn (columns : List Column) (x : IndexColumn) : Prop :=
  ∀ c, x.column = some c ↔ c ∈ columns ∧ c.name = x.expression

/-- No two columns of a table have the same name, and its keys and indexes are made of them. -/
structure Table.WellFormed (t : Table) : Prop where
  names : (t.columns.map (·.name)).Nodup
  primaryKey : ∀ k, t.primaryKey = some k → PickedFrom t.columns k.columns
  uniqueKeys : ∀ k ∈ t.uniqueKeys, PickedFrom t.columns k.columns
  foreignKeys : ∀ r ∈ t.parentKeys, PickedFrom t.columns r.childKey.columns
  included : ∀ i ∈ t.indexes, ∀ c ∈ i.included, c ∈ t.columns
  indexColumns : ∀ i ∈ t.indexes, ∀ x ∈ i.columns, x.LinkedIn t.columns

namespace Snapshot

/-! ### Columns -/

/-- No column is repeated if the names are distinct, and none of them was seen before. -/
theorem repeatedColumn?_eq_none_iff :
    ∀ {cs : List Column} {seen : List String},
      repeatedColumn? seen cs = none ↔
        (cs.map (·.name)).Nodup ∧ ∀ c ∈ cs, c.name ∉ seen
  | [], seen => by simp [repeatedColumn?]
  | c :: cs, seen => by
    rw [repeatedColumn?, List.map_cons, List.nodup_cons, List.forall_mem_cons]
    by_cases hc : c.name ∈ seen
    · simp [hc]
    · rw [if_neg (by simpa using hc), repeatedColumn?_eq_none_iff]
      -- the names seen so far grow by the name of each column, so later ones differ from it
      simp only [List.mem_cons, not_or, List.mem_map, not_exists, not_and]
      constructor
      · rintro ⟨hnodup, hnew⟩
        exact ⟨⟨fun c' hc' => (hnew c' hc').1, hnodup⟩, hc, fun c' hc' => (hnew c' hc').2⟩
      · rintro ⟨⟨hfirst, hnodup⟩, -, hnew⟩
        exact ⟨hnodup, fun c' hc' => ⟨hfirst c' hc', hnew c' hc'⟩⟩

/-- Columns are accepted if each is, and no name occurs twice. -/
theorem readColumns_eq_ok_iff {table : Identifier} {d : Doc} {cs : List Column} :
    readColumns table d = .ok cs ↔
      readList readColumn d = .ok cs ∧ (cs.map (·.name)).Nodup := by
  have hnodup : ∀ cs, repeatedColumn? [] cs = none ↔ (cs.map (·.name)).Nodup := fun cs => by
    simp [repeatedColumn?_eq_none_iff]
  unfold readColumns
  rw [bind_eq_ok_iff]
  constructor
  · rintro ⟨cs', hcs', h⟩
    split at h
    · cases h
    · next hnone =>
      obtain rfl := Except.ok.inj h
      exact ⟨hcs', (hnodup cs').mp hnone⟩
  · rintro ⟨hcs, hnames⟩
    refine ⟨cs, hcs, ?_⟩
    rw [(hnodup cs).mpr hnames]

/-- A list of column names stands for columns, whether it is a list or a single text. -/
theorem pickedFrom_of_resolveColumns {columns : List Column} {kind : Definition}
    {table : Identifier} {names : Doc} {cs : List Column}
    (h : resolveColumns columns kind table names = .ok cs) : PickedFrom columns cs := by
  obtain ⟨hitems, hsubset⟩ := resolveColumns_spec h
  refine ⟨?_, hsubset⟩
  rintro rfl
  simp only [resolveColumns, bind_eq_ok_iff, require_eq_ok_iff] at h
  obtain ⟨-, hpresent, -⟩ := h
  -- a list of names is one already, so it has no more forms to be brought into
  have htwice : names.asNames.asNames = names.asNames := by
    cases names <;> rfl
  refine asNames_items_ne_nil hpresent ?_
  rw [htwice, hitems]
  rfl

/-! ### Keys and indexes -/

theorem pickedFrom_of_readKey {kind : KeyKind} {columns : List Column} {table : Identifier}
    {e : Doc} {k : Key} (h : readKey kind columns table e = .ok k) :
    PickedFrom columns k.columns := by
  simp only [readKey, bind_eq_ok_iff, Except.ok.injEq] at h
  obtain ⟨-, -, cs, hcs, rfl⟩ := h
  exact pickedFrom_of_resolveColumns hcs

theorem pickedFrom_of_readPrimaryKey {columns : List Column} {table : Identifier} {e : Doc}
    {k : Key} (h : readPrimaryKey columns table e = .ok (some k)) :
    PickedFrom columns k.columns := by
  unfold readPrimaryKey at h
  split at h
  · obtain ⟨k', hk', hsome⟩ := bind_eq_ok_iff.mp h
    obtain rfl := Option.some.inj (Except.ok.inj hsome)
    exact pickedFrom_of_readKey hk'
  · cases h

theorem pickedFrom_of_readForeignKey {columns : List Column} {table : Identifier} {e : Doc}
    {f : ForeignKey} (h : readForeignKey columns table e = .ok f) :
    PickedFrom columns f.columns := by
  obtain ⟨-, -, hcolumns, -⟩ := readForeignKey_spec h
  exact pickedFrom_of_resolveColumns hcolumns

theorem linkedIn_linkIndexColumn {columns : List Column}
    (hnames : (columns.map (·.name)).Nodup) (c : String × Direction) :
    (linkIndexColumn columns c).LinkedIn columns :=
  fun _ => find?_key_eq_some_iff hnames

/-- An index has the name of its definition. Its columns are read one by one and then linked, and
the columns that it includes are those that a list of names stands for, if there is one. -/
theorem readIndex_reads {columns : List Column} {table : Identifier} {e : Doc} {i : Index}
    (h : readIndex columns table e = .ok i) :
    i.name = e.get "name" ∧
      (∃ parts keys, readNames (e.get "columns") = .ok parts ∧
        List.Forall₂ (fun d k => readIndexColumn d = .ok k) parts keys ∧
        i.columns = keys.map (linkIndexColumn columns)) ∧
      if (e.get "include").isPresent then
        resolveColumns columns .index table (e.get "include") = .ok i.included
      else i.included = [] := by
  unfold readIndex at h
  obtain ⟨-, -, h⟩ := bind_eq_ok_iff.mp h
  obtain ⟨parts, hparts, h⟩ := bind_eq_ok_iff.mp h
  obtain ⟨keys, hkeys, h⟩ := bind_eq_ok_iff.mp h
  dsimp only at h
  by_cases hpresent : (e.get "include").isPresent = true
  · rw [if_pos hpresent] at h ⊢
    obtain ⟨included, hincluded, h⟩ := bind_eq_ok_iff.mp h
    obtain rfl := Except.ok.inj h
    exact ⟨rfl, ⟨parts, keys, hparts, mapM_eq_ok_iff.mp hkeys, rfl⟩, hincluded⟩
  · rw [if_neg hpresent] at h ⊢
    obtain rfl := Except.ok.inj h
    exact ⟨rfl, ⟨parts, keys, hparts, mapM_eq_ok_iff.mp hkeys, rfl⟩, rfl⟩

/-- An index includes columns of the table, and its own columns are linked to them by name. -/
theorem readIndex_columns {columns : List Column} {table : Identifier} {e : Doc} {i : Index}
    (hnames : (columns.map (·.name)).Nodup) (h : readIndex columns table e = .ok i) :
    (∀ c ∈ i.included, c ∈ columns) ∧ ∀ x ∈ i.columns, x.LinkedIn columns := by
  obtain ⟨-, ⟨parts, keys, -, -, hcolumns⟩, hincluded⟩ := readIndex_reads h
  constructor
  · intro c hc
    split at hincluded
    · exact (pickedFrom_of_resolveColumns hincluded).subset c hc
    · rw [hincluded] at hc
      exact absurd hc List.not_mem_nil
  · intro x hx
    rw [hcolumns] at hx
    obtain ⟨k, -, rfl⟩ := List.mem_map.mp hx
    exact linkedIn_linkIndexColumn hnames k

/-! ### Tables -/

/-- The columns of a table are read part by part. -/
theorem readTable_columns {e : Doc} {d : Draft} (h : readTable e = .ok d) :
    ∃ es, (e.get "columns").parts? = some es ∧
      List.Forall₂ (fun e c => readColumn e = .ok c) es d.table.columns := by
  simp only [readTable, bind_eq_ok_iff, readColumns_eq_ok_iff, Except.ok.injEq] at h
  obtain ⟨-, -, name, -, cs, ⟨hcs, -⟩, _, -, _, -, _, -, _, -, _, -, _, -, rfl⟩ := h
  exact readList_eq_ok_iff.mp hcs

/-- What is read as a table is well formed, and its foreign keys are made of its columns. -/
theorem readTable_wellFormed {e : Doc} {d : Draft} (h : readTable e = .ok d) :
    d.table.WellFormed ∧ ∀ f ∈ d.foreignKeys, PickedFrom d.table.columns f.columns := by
  simp only [readTable, bind_eq_ok_iff, readColumns_eq_ok_iff, readList_eq_ok_iff,
    Except.ok.injEq] at h
  obtain ⟨-, -, name, -, cs, ⟨-, hnames⟩, pk, hpk, us, ⟨_, -, hus⟩, is, ⟨_, -, his⟩, ks, -, ts, -,
    fs, ⟨_, -, hfs⟩, rfl⟩ := h
  refine ⟨⟨hnames, ?_, ?_, ?_, ?_, ?_⟩, ?_⟩
  · rintro k rfl
    exact pickedFrom_of_readPrimaryKey hpk
  · intro k hk
    obtain ⟨u, -, hu⟩ := exists_partner hus.flip k hk
    exact pickedFrom_of_readKey hu
  -- no foreign key is linked yet
  · exact fun _ hr => absurd hr List.not_mem_nil
  · intro i hi
    obtain ⟨x, -, hx⟩ := exists_partner his.flip i hi
    exact (readIndex_columns hnames hx).1
  · intro i hi
    obtain ⟨x, -, hx⟩ := exists_partner his.flip i hi
    exact (readIndex_columns hnames hx).2
  · intro f hf
    obtain ⟨x, -, hx⟩ := exists_partner hfs.flip f hf
    exact pickedFrom_of_readForeignKey hx

/-- Linking adds the foreign keys of the draft, each with the columns it is declared on, and leaves
the rest of the table alone. -/
theorem linked_wellFormed {ds : List Draft} {d : Draft} (hd : d.table.WellFormed)
    (hforeign : ∀ f ∈ d.foreignKeys, PickedFrom d.table.columns f.columns)
    (haccepted : Accepted (declaredRelationships (ds.map (·.table)) d)) :
    (linked ds d).WellFormed := by
  have hkeys : ∀ r ∈ (linked ds d).parentKeys, PickedFrom d.table.columns r.childKey.columns := by
    intro r hr
    obtain ⟨f, hf, hresolve⟩ := exists_partner (relationships_spec haccepted).flip r hr
    obtain ⟨p, -, hresolve⟩ := resolveForeignKey_eq_ok_iff.mp hresolve
    obtain ⟨k, -, -, rfl⟩ := resolve_eq_ok_iff.mp hresolve
    exact hforeign f hf
  exact { hd with foreignKeys := hkeys }

/-- **Tables are made of their own columns.** Every table of an accepted snapshot is well formed,
whatever forms its keys and indexes are given in. -/
theorem readDatabase_wellFormed {d : Doc} {db : Database} (h : readDatabase d = .ok db) :
    ∀ t ∈ db.tables, t.WellFormed := by
  obtain ⟨-, ⟨es, ds, -, hdrafts, hlinked⟩, -⟩ := readDatabase_eq_ok_iff.mp h
  obtain ⟨hread, hnames, -⟩ := readTables_eq_ok_iff.mp hdrafts
  obtain ⟨haccepted, htables⟩ := (linkTables_eq_ok_iff hnames).mp hlinked
  rw [htables, List.forall_mem_map]
  intro d hd
  obtain ⟨e, -, he⟩ := exists_partner hread.flip d hd
  obtain ⟨hwellFormed, hforeign⟩ := readTable_wellFormed he
  exact linked_wellFormed hwellFormed hforeign (haccepted d hd)

/-- A table whose keys and indexes are given in all forms: as a text, as a list and as a mapping. -/
def shelf : Doc :=
  .map [(.text "table", .text "shelf"),
    (.text "columns", .list (["room", "row", "above", "note"].map integerColumn)),
    (.text "primary_key", .text "row"),
    (.text "unique_keys", .list [.list [.text "room", .text "row"],
      .map [(.text "columns", .text "note")]]),
    (.text "indexes", .list [
      .map [(.text "columns", .list [.text "note desc", .text "lower(note)",
          .map [(.text "expression", .text " room "), (.text "order", .text "DESC")]]),
        (.text "include", .text "row")],
      .map [(.text "columns", .text "above  asc")]]),
    (.text "foreign_keys", .list [.map [(.text "columns", .text "above"),
      (.text "references", .map [(.text "table", .text "shelf")])]])]

/-- Of the columns of its first index, the one over an expression is linked to nothing. -/
theorem shelf_wellFormed :
    ∃ db, readDatabase (staff [shelf]) = .ok db ∧
      (∀ t ∈ db.tables, t.WellFormed) ∧
      (db.tables.head?.map fun t => t.indexes.map fun i => i.columns.map fun x =>
          (x.expression, x.column.map (·.name))) =
        some [[("note", some "note"), ("lower(note)", none), ("room", some "room")],
          [("above", some "above")]] := by
  have hread : ∃ db, readDatabase (staff [shelf]) = .ok db ∧
      (db.tables.head?.map fun t => t.indexes.map fun i => i.columns.map fun x =>
          (x.expression, x.column.map (·.name))) =
        some [[("note", some "note"), ("lower(note)", none), ("room", some "room")],
          [("above", some "above")]] := by
    decide +kernel
  obtain ⟨db, hdb, hcolumns⟩ := hread
  exact ⟨db, hdb, readDatabase_wellFormed hdb, hcolumns⟩

end Snapshot
end SchemaAudit
