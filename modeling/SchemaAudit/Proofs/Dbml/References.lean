import SchemaAudit.Dbml.Document
import SchemaAudit.Proofs.Snapshot.Relationships

/-!
# Reference lines and the columns they name

The `Ref` lines of a document name columns of the table blocks before them. For the tables of an
accepted snapshot no such name dangles, and no pair of columns is lost on the way from the
definition of a foreign key to its lines.

- `PairsColumns`: the lines of one foreign key, one for each column that it lists.
- `FollowsForeignKeys`: the lines of a table, one block for each foreign key of its definition.
- `Resolved`: both ends of a line are columns of tables, and what shows them.

A table is written only if the names of its indexes are, and a snapshot may give an index a name
that is no text. So what a `Ref` line names is shown exactly where `IndexesWritable` holds.
-/

namespace SchemaAudit.Dbml

/-! ### Tables that can be written -/

/-- The name of an index is absent, or it is a text or has texts for its parts. -/
def NameWritable (i : Index) : Prop :=
  ∃ parts, i.name.parts? = some parts ∧ ∀ p ∈ parts, ∃ s, p = .text s

/-- Every index that gets a line has a name that can be written. -/
def IndexesWritable (t : Table) : Prop :=
  ∀ i ∈ t.indexes, i.columns ≠ [] → NameWritable i

/-- A table is written with a line for the column of the given name. -/
def ShowsColumn (t : Table) (name : String) : Prop :=
  ∃ lines, tableLines t = .ok lines ∧
    ∃ c ∈ t.columns, unquote c.name = name ∧ columnLine t c ∈ lines

theorem accepted_unquoteName_iff {name : Doc} :
    Accepted (unquoteName name) ↔
      ∃ parts, name.items? = some parts ∧ ∀ p ∈ parts, ∃ s, p = .text s := by
  unfold unquoteName
  cases name.items? with
  | none => simp [Accepted]
  | some parts =>
    simp only [accepted_bind_ok_iff, accepted_mapM_iff, Option.some.injEq, exists_eq_left']
    refine forall₂_congr fun p _ => ?_
    cases p <;> simp [Accepted]

theorem accepted_nameOption_iff {i : Index} : Accepted (nameOption i) ↔ NameWritable i := by
  unfold nameOption NameWritable Doc.parts?
  by_cases h : i.name.isPresent = true
  · rw [if_pos h, if_pos h, accepted_bind_ok_iff, accepted_unquoteName_iff]
  · rw [if_neg h, if_neg h]
    exact ⟨fun _ => ⟨[], rfl, fun p hp => absurd hp List.not_mem_nil⟩, fun _ => ⟨[], rfl⟩⟩

theorem accepted_indexLine_iff {i : Index} :
    Accepted (indexLine i) ↔ (i.columns ≠ [] → NameWritable i) := by
  have hnames : i.columnNames.map unquote = [] ↔ i.columns = [] := by
    simp [Index.columnNames]
  unfold indexLine
  split
  · next h => exact ⟨fun _ hne => absurd (hnames.mp h) hne, fun _ => ⟨none, rfl⟩⟩
  · next h =>
    have hne : i.columns ≠ [] := fun hnil => h (hnames.mpr hnil)
    rw [accepted_bind_ok_iff, accepted_nameOption_iff]
    exact ⟨fun hw _ => hw, fun hw => hw hne⟩

theorem accepted_tableLines_iff {t : Table} : Accepted (tableLines t) ↔ IndexesWritable t := by
  unfold tableLines IndexesWritable
  simp only [accepted_bind_ok_iff, accepted_mapM_iff, accepted_indexLine_iff]

theorem columnLine_mem {t : Table} {lines : List String} (h : tableLines t = .ok lines)
    {c : Column} (hc : c ∈ t.columns) : columnLine t c ∈ lines := by
  obtain ⟨indexLines, -, hlines⟩ := bind_eq_ok_iff.mp h
  rw [← Except.ok.inj hlines]
  simp only [List.mem_append]
  exact .inl (.inl (.inr (List.mem_map_of_mem hc)))

/-- A table shows its columns if it can be written at all. -/
theorem showsColumn_iff {t : Table} {c : Column} (hc : c ∈ t.columns) :
    ShowsColumn t (unquote c.name) ↔ IndexesWritable t := by
  rw [← accepted_tableLines_iff]
  constructor
  · rintro ⟨lines, hlines, -⟩
    exact ⟨lines, hlines⟩
  · rintro ⟨lines, hlines⟩
    exact ⟨lines, hlines, c, hc, rfl, columnLine_mem hlines hc⟩

/-! ### The lines of one relationship -/

/-- The lines for the foreign key `f` of the table `t`: one for each column that `f` lists. Each
pairs the columns that stand at its place in the two keys, a column of `t` and one of the referenced
table `p`. -/
structure PairsColumns (f : Doc) (t p : Table) (r : Relationship) (lines : List String) :
    Prop where
  declared : Snapshot.DeclaredBy f p r
  parent : r.parentTable = p.name
  key : p.primaryKey = some r.parentKey ∨ r.parentKey ∈ p.uniqueKeys
  count : ∃ names, (f.get "columns").asNames.items? = some names ∧ lines.length = names.length
  line : ∀ (i : ℕ) (l : String), lines[i]? = some l → ∃ c ∈ t.columns, ∃ b ∈ p.columns,
    r.childKey.columns[i]? = some c ∧ r.parentKey.columns[i]? = some b ∧
      l = pairLine t.name p.name (r.cardinality (some p)).sign (c, b)

/-- Where no two tables have the same name, the last of a name is the one of that name. -/
theorem lastNamed?_name {tables : List Table} (hnames : (tables.map (·.name)).Nodup) {p : Table}
    (hp : p ∈ tables) : lastNamed? tables p.name = some p := by
  rw [lastNamed?, ← find?_key_perm hnames (List.reverse_perm tables).symm]
  exact (find?_key_eq_some_iff hnames).mpr ⟨hp, rfl⟩

theorem relationshipLines_pairs {f : Doc} {db : Database} {t p : Table} {r : Relationship}
    (hnames : (db.tables.map (·.name)).Nodup) (hleads : r.LeadsFrom db t) (hp : p ∈ db.tables)
    (hparent : r.parentTable = p.name) (hdeclared : Snapshot.DeclaredBy f p r)
    (hkeys : ∀ k, p.primaryKey = some k ∨ k ∈ p.uniqueKeys → ∀ b ∈ k.columns, b ∈ p.columns) :
    PairsColumns f t p r (relationshipLines db.tables t.name r) := by
  -- the table that the relationship leads to is the one that the definition names
  obtain ⟨p', hp', hparent', hkey⟩ := hleads.parent
  obtain rfl : p' = p := eq_of_key_eq hnames hp' hp (hparent' ▸ hparent)
  refine ⟨hdeclared, hparent, hkey, ⟨_, hdeclared.columns, ?_⟩, ?_⟩
  · simp [relationshipLines, Snapshot.columnTexts, hleads.length]
  · intro i l hl
    rw [relationshipLines, hparent, lastNamed?_name hnames hp, List.getElem?_map,
      Option.map_eq_some_iff] at hl
    obtain ⟨⟨c, b⟩, hpair, rfl⟩ := hl
    obtain ⟨hc, hb⟩ := List.getElem?_zip_eq_some.mp hpair
    exact ⟨c, hleads.columns c (List.mem_of_getElem? hc), b,
      hkeys _ hkey b (List.mem_of_getElem? hb), hc, hb, rfl⟩

/-! ### The lines of all tables -/

/-- The lines of the table `t` follow the foreign keys of its definition `e`, one block of lines for
each. -/
def FollowsForeignKeys (tables : List Table) (e : Doc) (t : Table) : Prop :=
  ∃ fs blocks, (e.get "foreign_keys").parts? = some fs ∧
    referenceLines tables t = blocks.flatten ∧
    List.Forall₂ (fun f lines => ∃ p ∈ tables, ∃ r ∈ t.parentKeys, PairsColumns f t p r lines)
      fs blocks

/-- A line pairs a column of the table `t` with one of a table of the database, and the blocks of
both tables show the column that it names, where they can be written. -/
def Resolved (tables : List Table) (t : Table) (line : String) : Prop :=
  ∃ c ∈ t.columns, ∃ p ∈ tables, ∃ b ∈ p.columns, ∃ s : Cardinality,
    line = pairLine t.name p.name s.sign (c, b) ∧
      (ShowsColumn t (unquote c.name) ↔ IndexesWritable t) ∧
      (ShowsColumn p (unquote b.name) ↔ IndexesWritable p)

/-- The `Ref` lines of a database name what its tables show and what its snapshot declares. -/
structure ReferencesResolved (d : Doc) (db : Database) : Prop where
  resolved : ∀ t ∈ db.tables, ∀ line ∈ referenceLines db.tables t, Resolved db.tables t line
  follows : ∃ es, (d.get "tables").parts? = some es ∧
    List.Forall₂ (FollowsForeignKeys db.tables) es db.tables

theorem resolved_of_followsForeignKeys {tables : List Table} {e : Doc} {t : Table}
    (h : FollowsForeignKeys tables e t) :
    ∀ line ∈ referenceLines tables t, Resolved tables t line := by
  obtain ⟨fs, blocks, -, hlines, hblocks⟩ := h
  intro line hline
  rw [hlines] at hline
  obtain ⟨lines, hmem, hline⟩ := List.mem_flatten.mp hline
  obtain ⟨f, -, p, hp, r, -, hpairs⟩ := exists_partner hblocks.flip lines hmem
  obtain ⟨i, hi⟩ := List.getElem?_of_mem hline
  obtain ⟨c, hc, b, hb, -, -, rfl⟩ := hpairs.line i line hi
  exact ⟨c, hc, p, hp, b, hb, _, rfl, showsColumn_iff hc, showsColumn_iff hb⟩

theorem followsForeignKeys_of_drafted {es : List Doc} {ds : List Snapshot.Draft} {db : Database}
    (h : Snapshot.Drafted es ds) (htables : db.tables = ds.map (Snapshot.linked ds)) {e : Doc}
    {d : Snapshot.Draft} (he : Snapshot.readTable e = .ok d) (hd : d ∈ ds) :
    FollowsForeignKeys db.tables e (Snapshot.linked ds d) := by
  have hnames : (db.tables.map (·.name)).Nodup := by
    rw [htables, List.map_map]
    exact h.names
  have hkeys : ∀ p ∈ db.tables, ∀ k, p.primaryKey = some k ∨ k ∈ p.uniqueKeys →
      ∀ b ∈ k.columns, b ∈ p.columns := by
    intro p hp k hk
    rw [htables] at hp
    obtain ⟨dp, hdp, rfl⟩ := List.mem_map.mp hp
    exact h.keys hdp hk
  obtain ⟨fs, hfs, hdeclared⟩ := h.declared he hd htables
  refine ⟨fs, (Snapshot.linked ds d).parentKeys.map
    (relationshipLines db.tables (Snapshot.linked ds d).name), hfs, List.flatMap_def .., ?_⟩
  rw [List.forall₂_map_right_iff]
  refine (pairs_with_mem hdeclared).imp ?_
  rintro f r ⟨⟨hleads, p, hp, hparent, hf⟩, hr⟩
  exact ⟨p, hp, r, hr, relationshipLines_pairs hnames hleads hp hparent hf (hkeys p hp)⟩

/-- **No reference dangles.** The `Ref` lines of an accepted snapshot stand for the columns of its
foreign keys, one line for each, and lead from a column of one table to a column of the referenced
one. Both columns have a line in the blocks of their tables, unless the name of an index cannot be
written. -/
theorem referenceLines_resolved {d : Doc} {db : Database} (h : Snapshot.readDatabase d = .ok db) :
    ReferencesResolved d db := by
  obtain ⟨es, ds, hes, hdrafted, htables⟩ := Snapshot.drafted_of_readDatabase h
  have hfollows : List.Forall₂ (FollowsForeignKeys db.tables) es db.tables := by
    rw [htables, List.forall₂_map_right_iff, ← htables]
    refine (pairs_with_mem hdrafted.read).imp ?_
    rintro e d ⟨he, hd⟩
    exact followsForeignKeys_of_drafted hdrafted htables he hd
  refine ⟨fun t ht => ?_, es, hes, hfollows⟩
  obtain ⟨e, -, he⟩ := exists_partner hfollows.flip t ht
  exact resolved_of_followsForeignKeys he

/-! ### Transfers between accounts -/

/-- A snapshot of accounts, known by number and branch, and of transfers to them. The accounts have
an index of the given name. -/
def bank (indexName : Doc) : Doc :=
  Snapshot.staff [
    .map [(.text "table", .text "account"),
      (.text "columns",
        .list [Snapshot.integerColumn "branch", Snapshot.integerColumn "[number]"]),
      (.text "unique_keys", .list [.list [.text "[number]", .text "branch"]]),
      (.text "indexes", .list [.map [(.text "name", indexName),
        (.text "columns", .list [.text "branch"])]])],
    .map [(.text "table", .text "transfer"),
      (.text "columns",
        .list [Snapshot.integerColumn "to_branch", Snapshot.integerColumn "to_number"]),
      (.text "foreign_keys", .list [.map [
        (.text "columns", .list [.text "to_number", .text "to_branch"]),
        (.text "references", .map [(.text "table", .text "account"),
          (.text "columns", .list [.text "[number]", .text "branch"])])]])]]

/-- A key of two columns in another order than in its table, one of them with quotes. -/
theorem bank_referenceLines :
    ∃ db, Snapshot.readDatabase (bank (.text "by branch")) = .ok db ∧
      ReferencesResolved (bank (.text "by branch")) db ∧
      (∀ t ∈ db.tables, IndexesWritable t) ∧
      db.tables.map (referenceLines db.tables) = [[],
        ["Ref: transfer.to_number > account.number",
          "Ref: transfer.to_branch > account.branch"]] := by
  have hlines : ∃ db, Snapshot.readDatabase (bank (.text "by branch")) = .ok db ∧
      (∀ t ∈ db.tables, Accepted (tableLines t)) ∧
      db.tables.map (referenceLines db.tables) = [[],
        ["Ref: transfer.to_number > account.number",
          "Ref: transfer.to_branch > account.branch"]] := by
    decide +kernel
  obtain ⟨db, hdb, hwritten, hlines⟩ := hlines
  exact ⟨db, hdb, referenceLines_resolved hdb,
    fun t ht => accepted_tableLines_iff.mp (hwritten t ht), hlines⟩

/-- An index named by a number: the accounts cannot be written, and the `Ref` lines of the transfers
name columns that no block shows. -/
theorem bank_dangling :
    ∃ db, Snapshot.readDatabase (bank (.int 5)) = .ok db ∧
      (∃ t ∈ db.tables,
        "Ref: transfer.to_number > account.number" ∈ referenceLines db.tables t) ∧
      ∀ p ∈ db.tables, p.name.visibleName = "account" → ¬ ShowsColumn p "number" := by
  have hlines : ∃ db, Snapshot.readDatabase (bank (.int 5)) = .ok db ∧
      (∃ t ∈ db.tables,
        "Ref: transfer.to_number > account.number" ∈ referenceLines db.tables t) ∧
      ∀ p ∈ db.tables, p.name.visibleName = "account" → ¬ Accepted (tableLines p) := by
    decide +kernel
  obtain ⟨db, hdb, hline, hrefused⟩ := hlines
  refine ⟨db, hdb, hline, ?_⟩
  rintro p hp hname ⟨lines, hlines, -⟩
  exact hrefused p hp hname ⟨lines, hlines⟩

end SchemaAudit.Dbml
