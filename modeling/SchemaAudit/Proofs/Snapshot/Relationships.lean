import SchemaAudit.Proofs.Snapshot.WellFormed

/-!
# Relationships known at both ends

A relationship is kept twice: among the `parentKeys` of its child table and among the `childKeys`
of its parent table. The main statement is that the two views of an accepted snapshot agree:
nothing is lost, doubled or given to another table on either side, and both lists keep the order of
declaration.

- `Relationship.LeadsFrom`: what every relationship of a table refers to.
- `DeclaredBy`: the relationship that the definition of a foreign key stands for.
- `FollowsDefinitions`: tables and relationships stand in the order of their definitions.
- `Database.BothEnds`: the two views of all tables agree.
-/

namespace SchemaAudit

/-- A relationship leads from the table `t` to a key of some table of the database, column by
column. -/
structure Relationship.LeadsFrom (db : Database) (t : Table) (r : Relationship) : Prop where
  child : r.childTable = t.name
  kind : r.childKey.kind = .foreign
  columns : ∀ c ∈ r.childKey.columns, c ∈ t.columns
  parent : ∃ p ∈ db.tables, r.parentTable = p.name ∧
    (p.primaryKey = some r.parentKey ∨ r.parentKey ∈ p.uniqueKeys)
  length : r.childKey.columns.length = r.parentKey.columns.length

/-- The relationships of a database, seen from their child tables and from their parent tables. -/
structure Database.BothEnds (db : Database) : Prop where
  /-- What the child tables know refers to the database. -/
  parentKeys : ∀ t ∈ db.tables, ∀ r ∈ t.parentKeys, r.LeadsFrom db t
  /-- What the parent tables know leads to them, and comes from a table of the database. -/
  childKeys : ∀ p ∈ db.tables, ∀ r ∈ p.childKeys,
    r.parentTable = p.name ∧ ∃ t ∈ db.tables, r.childTable = t.name
  /-- Both ends know a relationship equally often. -/
  count : ∀ p ∈ db.tables, ∀ t ∈ db.tables, ∀ r : Relationship,
    r.parentTable = p.name → r.childTable = t.name → p.childKeys.count r = t.parentKeys.count r
  /-- The parent tables know their relationships in the order of the child tables, and those of one
  child table in its order. -/
  order : ∀ p ∈ db.tables,
    p.childKeys = (db.tables.flatMap (·.parentKeys)).filter (·.parentTable == p.name)

namespace Snapshot

/-- The relationship `r` to the table `p` is what the definition `e` of a foreign key declares: its
name and state, its columns by name, the referenced table by name, the referenced columns by name
or the primary key, and the two actions. -/
structure DeclaredBy (e : Doc) (p : Table) (r : Relationship) : Prop where
  name : r.childKey.name = e.get "name"
  enabled : r.childKey.enabled = fieldOr e "enabled" (.bool true)
  columns : (e.get "columns").asNames.items? = some (columnTexts r.childKey)
  table : makeIdentifier ((e.get "references").get "table").display
    ((e.get "references").get "schema") = .ok r.parentTable
  key : if ((e.get "references").get "columns").isPresent
    then ((e.get "references").get "columns").asNames.items? = some (columnTexts r.parentKey)
    else p.primaryKey = some r.parentKey
  onUpdate : readAction r.childTable (e.get "on_update") = .ok r.onUpdate
  onDelete : readAction r.childTable (e.get "on_delete") = .ok r.onDelete

/-- The tables of a database follow the table definitions of a snapshot, and the relationships of
each table the foreign keys of its definition, one for each. -/
def FollowsDefinitions (d : Doc) (db : Database) : Prop :=
  ∃ es, (d.get "tables").parts? = some es ∧
    List.Forall₂ (fun e t => readName .table "table" e = .ok t.name ∧
      ∃ fs, (e.get "foreign_keys").parts? = some fs ∧
        List.Forall₂ (fun f r => ∃ p ∈ db.tables, r.parentTable = p.name ∧ DeclaredBy f p r)
          fs t.parentKeys)
      es db.tables

/-! ### One relationship -/

/-- The two steps of reading a foreign key together give the relationship that its definition
declares, and this leads from its table to the referenced one. -/
theorem declaredBy_of_read {db : Database} {t p : Table} {e : Doc} {f : ForeignKey}
    {r : Relationship} (hread : readForeignKey t.columns t.name e = .ok f)
    (hp : p ∈ db.tables) (hname : p.name = f.parentTable) (hresolve : f.resolve t p = .ok r) :
    r.LeadsFrom db t ∧ r.parentTable = p.name ∧ DeclaredBy e p r := by
  obtain ⟨hfname, henabled, hcolumns, hparent, hnames, hupdate, hdelete⟩ :=
    readForeignKey_spec hread
  obtain ⟨htexts, hsub⟩ := resolveColumns_spec hcolumns
  obtain ⟨k, hk, hlength, rfl⟩ := resolve_eq_ok_iff.mp hresolve
  obtain ⟨hkey, hgiven⟩ := findParentKey_spec hk
  refine ⟨⟨rfl, rfl, hsub, ⟨p, hp, rfl, hkey⟩, hlength.symm⟩, rfl, ?_⟩
  refine ⟨hfname, henabled, htexts, ?_, ?_, hupdate, hdelete⟩
  · rw [hparent, ← hname]
    rfl
  · rw [readNames_eq_ok_iff] at hnames
    -- given columns name the referenced key, and without them it is the primary key
    by_cases hpresent : ((e.get "references").get "columns").isPresent = true
    · rw [if_pos hpresent] at hnames ⊢
      have hne : f.parentColumns ≠ [] := fun h =>
        asNames_items_ne_nil hpresent (h ▸ hnames)
      rw [if_neg hne] at hgiven
      rw [hnames, ← hgiven]
      rfl
    · rw [if_neg hpresent] at hnames ⊢
      rwa [if_pos hnames] at hgiven

/-! ### All relationships of a snapshot -/

/-- The drafts that a list of table definitions stands for, with what linking needs of them. -/
structure Drafted (es : List Doc) (ds : List Draft) : Prop where
  read : List.Forall₂ (fun e d => readTable e = .ok d) es ds
  names : (ds.map (·.table.name)).Nodup
  accepted : ∀ d ∈ ds, Accepted (declaredRelationships (ds.map (·.table)) d)

variable {es : List Doc} {ds : List Draft}

/-- The foreign keys of a table definition are, one by one and in order, the relationships of the
linked table. -/
theorem Drafted.declared (h : Drafted es ds) {e : Doc} {d : Draft} (he : readTable e = .ok d)
    (hd : d ∈ ds) {db : Database} (htables : db.tables = ds.map (linked ds)) :
    ∃ fs, (e.get "foreign_keys").parts? = some fs ∧
      List.Forall₂ (fun f r => r.LeadsFrom db (linked ds d) ∧
        ∃ p ∈ db.tables, r.parentTable = p.name ∧ DeclaredBy f p r)
        fs (linked ds d).parentKeys := by
  obtain ⟨-, fs, hfs, hread⟩ := readTable_spec he
  refine ⟨fs, hfs, ?_⟩
  refine (pairs_comp hread (relationships_spec (h.accepted d hd))).imp ?_
  rintro e' r ⟨f, hf, hr⟩
  obtain ⟨p, hp, hresolve⟩ := resolveForeignKey_eq_ok_iff.mp hr
  obtain ⟨dp, hdp, rfl⟩ := List.mem_map.mp (List.mem_of_find?_eq_some hp)
  have hname : dp.table.name = f.parentTable := key_of_find?_eq_some hp
  have hmem : linked ds dp ∈ db.tables := htables ▸ List.mem_map_of_mem hdp
  -- linking changes nothing that a foreign key is resolved by
  have hlinked : f.resolve (linked ds d) (linked ds dp) = .ok r := hresolve
  obtain ⟨hleads, hparent, hdeclared⟩ :=
    declaredBy_of_read (t := linked ds d) hf hmem hname hlinked
  exact ⟨hleads, linked ds dp, hmem, hparent, hdeclared⟩

/-- What a relationship of a linked table refers to. -/
theorem Drafted.leadsFrom (h : Drafted es ds) {db : Database}
    (htables : db.tables = ds.map (linked ds)) {d : Draft} (hd : d ∈ ds) :
    ∀ r ∈ (linked ds d).parentKeys, r.LeadsFrom db (linked ds d) := by
  intro r hr
  obtain ⟨e, -, he⟩ := exists_partner h.read.flip d hd
  obtain ⟨fs, -, hdeclared⟩ := h.declared he hd htables
  obtain ⟨f, -, hleads, -⟩ := exists_partner hdeclared.flip r hr
  exact hleads

/-- The primary and unique keys of a linked table consist of its columns. -/
theorem Drafted.keys (h : Drafted es ds) {d : Draft} (hd : d ∈ ds) {k : Key}
    (hk : (linked ds d).primaryKey = some k ∨ k ∈ (linked ds d).uniqueKeys) :
    ∀ c ∈ k.columns, c ∈ (linked ds d).columns := by
  obtain ⟨e, -, he⟩ := exists_partner h.read.flip d hd
  obtain ⟨hwellFormed, -⟩ := readTable_wellFormed he
  rcases hk with hk | hk
  · exact (hwellFormed.primaryKey k hk).subset
  · exact (hwellFormed.uniqueKeys k hk).subset

theorem Drafted.bothEnds (h : Drafted es ds) {db : Database}
    (htables : db.tables = ds.map (linked ds)) : db.BothEnds := by
  have hleads : ∀ t ∈ db.tables, ∀ r ∈ t.parentKeys, r.LeadsFrom db t := by
    intro t ht
    rw [htables] at ht
    obtain ⟨d, hd, rfl⟩ := List.mem_map.mp ht
    exact h.leadsFrom htables hd
  have hnames : (db.tables.map (·.name)).Nodup := by
    rw [htables, List.map_map]
    exact h.names
  have horder : ∀ p ∈ db.tables,
      p.childKeys = (db.tables.flatMap (·.parentKeys)).filter (·.parentTable == p.name) := by
    intro p hp
    rw [htables] at hp ⊢
    obtain ⟨d, -, rfl⟩ := List.mem_map.mp hp
    exact linked_childKeys ds d
  refine ⟨hleads, ?_, ?_, horder⟩
  · intro p hp r hr
    rw [horder p hp, List.mem_filter] at hr
    obtain ⟨t, ht, hrt⟩ := List.mem_flatMap.mp hr.1
    exact ⟨eq_of_beq hr.2, t, ht, (hleads t ht r hrt).child⟩
  · intro p hp t ht r hparent hchild
    have hkept : (r.parentTable == p.name) = true := beq_iff_eq.mpr hparent
    rw [horder p hp, List.count_filter (p := fun k : Relationship => k.parentTable == p.name) hkept]
    refine count_flatMap_of_owner hnames t ht fun u hu hr => ?_
    rw [← (hleads u hu r hr).child, hchild]

theorem drafted_of_readDatabase {d : Doc} {db : Database} (h : readDatabase d = .ok db) :
    ∃ es ds, (d.get "tables").parts? = some es ∧ Drafted es ds ∧
      db.tables = ds.map (linked ds) := by
  obtain ⟨-, ⟨es, ds, hes, hds, hts⟩, -⟩ := readDatabase_eq_ok_iff.mp h
  obtain ⟨hread, hnames, -⟩ := readTables_eq_ok_iff.mp hds
  obtain ⟨haccepted, htables⟩ := (linkTables_eq_ok_iff hnames).mp hts
  exact ⟨es, ds, hes, ⟨hread, hnames, haccepted⟩, htables⟩

/-- **Both ends agree.** In the database of an accepted snapshot the relationships are known to
their child tables and to their parent tables alike, in the order of their definitions. -/
theorem readDatabase_bothEnds {d : Doc} {db : Database} (h : readDatabase d = .ok db) :
    db.BothEnds ∧ FollowsDefinitions d db := by
  obtain ⟨es, ds, hes, hdrafted, htables⟩ := drafted_of_readDatabase h
  refine ⟨hdrafted.bothEnds htables, es, hes, ?_⟩
  rw [htables, List.forall₂_map_right_iff, ← htables]
  refine (pairs_with_mem hdrafted.read).imp ?_
  rintro e d ⟨he, hd⟩
  obtain ⟨fs, hfs, hdeclared⟩ := hdrafted.declared he hd htables
  exact ⟨(readTable_spec he).1, fs, hfs, hdeclared.imp fun _ _ hr => hr.2⟩

/-- The same reference twice, to a table behind it, and a table that references itself. -/
theorem staff_bothEnds :
    ∃ db, readDatabase (staff [badge, person]) = .ok db ∧ db.BothEnds ∧
      FollowsDefinitions (staff [badge, person]) db := by
  have haccepted : Accepted (readDatabase (staff [badge, person])) := by decide +kernel
  obtain ⟨db, hdb⟩ := haccepted
  exact ⟨db, hdb, readDatabase_bothEnds hdb⟩

end Snapshot
end SchemaAudit
