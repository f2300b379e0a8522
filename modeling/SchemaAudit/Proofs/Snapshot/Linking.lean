import Mathlib.Data.List.Nodup
import SchemaAudit.Proofs.Results
import SchemaAudit.Snapshot.Database

/-!
# Linking foreign keys, step by step

One law for each reader between the definition of a foreign key and the relationships of the linked
tables. Later modules use these laws and never open the readers again.

- `resolveColumns_spec`, `findParentKey_spec`, `resolveForeignKey_eq_ok_iff`: the columns, the
  referenced key and the relationship of one foreign key.
- `readTable_spec`, `readTables_eq_ok_iff`: the drafts of the tables, with distinct names.
- `linkTables_eq`, `Links.childKeys_foldl`: the pass over all foreign keys, and what it collects
  under the name of a table.
- `linkTables_eq_ok_iff`: **linking is a map over the drafts**. Every draft takes the relationships
  that it declares, and those of all drafts that lead to it.
-/

namespace SchemaAudit.Snapshot

/-! ### Columns and keys -/

theorem lookupColumn_eq_ok {columns : List Column} {kind : Definition} {table : Identifier}
    {name : Doc} {c : Column} (h : lookupColumn columns kind table name = .ok c) :
    c ∈ columns ∧ name = .text c.name := by
  unfold lookupColumn at h
  split at h
  · split at h
    · next found =>
      obtain rfl := Except.ok.inj h
      have hname := List.find?_some found
      exact ⟨List.mem_of_find?_eq_some found, (eq_of_beq hname).symm⟩
    · cases h
  · cases h

/-- The resolved columns are columns of the table, with the listed names in the listed order. -/
theorem resolveColumns_spec {columns : List Column} {kind : Definition} {table : Identifier}
    {names : Doc} {cs : List Column} (h : resolveColumns columns kind table names = .ok cs) :
    names.asNames.items? = some (cs.map fun c => .text c.name) ∧ ∀ c ∈ cs, c ∈ columns := by
  simp only [resolveColumns, bind_eq_ok_iff, require_eq_ok_iff, readList_eq_ok_iff] at h
  obtain ⟨-, present, ds, hparts, hds⟩ := h
  rw [Doc.parts?, if_pos present] at hparts
  rw [hparts]
  clear hparts
  induction hds with
  | nil => exact ⟨rfl, fun c hc => absurd hc List.not_mem_nil⟩
  | cons hd _ ih =>
    obtain ⟨hmem, rfl⟩ := lookupColumn_eq_ok hd
    refine ⟨?_, ?_⟩
    · rw [List.map_cons, ← Option.some.inj ih.1]
    · intro c hc
      rcases List.mem_cons.mp hc with rfl | hc
      · exact hmem
      · exact ih.2 c hc

/-- The referenced key is the primary key where no columns are given, and otherwise a primary or
unique key with exactly the given columns. -/
theorem findParentKey_spec {parent : Table} {columns : List Doc} {k : Key}
    (h : findParentKey parent columns = .ok k) :
    (parent.primaryKey = some k ∨ k ∈ parent.uniqueKeys) ∧
      if columns = [] then parent.primaryKey = some k else columnTexts k = columns := by
  cases columns with
  | nil =>
    rw [findParentKey] at h
    split at h
    · next found =>
      obtain rfl := Except.ok.inj h
      exact ⟨.inl found, found⟩
    · cases h
  | cons c cs =>
    rw [findParentKey] at h
    split at h
    · next found =>
      obtain rfl := Except.ok.inj h
      have hmem := List.mem_append.mp (List.mem_of_find?_eq_some found)
      have htexts := List.find?_some found
      rw [Option.mem_toList] at hmem
      rw [if_neg (List.cons_ne_nil c cs)]
      exact ⟨hmem, eq_of_beq htexts⟩
    · obtain ⟨names, -, hnames⟩ := bind_eq_ok_iff.mp h
      cases hnames

/-! ### One foreign key -/

/-- The relationship of a foreign key whose referenced key is known. -/
def ForeignKey.relationship (f : ForeignKey) (child parent : Table) (k : Key) : Relationship where
  childTable := child.name
  childKey := ⟨f.name, .foreign, f.columns, f.enabled⟩
  parentTable := parent.name
  parentKey := k
  onUpdate := f.onUpdate
  onDelete := f.onDelete

theorem resolve_eq_ok_iff {f : ForeignKey} {child parent : Table} {r : Relationship} :
    f.resolve child parent = .ok r ↔
      ∃ k, findParentKey parent f.parentColumns = .ok k ∧
        k.columns.length = f.columns.length ∧ r = f.relationship child parent k := by
  simp only [ForeignKey.resolve, bind_eq_ok_iff, require_eq_ok_iff, beq_iff_eq, Except.ok.injEq]
  constructor
  · rintro ⟨k, hk, -, hlength, rfl⟩
    exact ⟨k, hk, hlength, rfl⟩
  · rintro ⟨k, hk, hlength, rfl⟩
    exact ⟨k, hk, (), hlength, rfl⟩

theorem resolveForeignKey_eq_ok_iff {tables : List Table} {child : Table} {f : ForeignKey}
    {r : Relationship} :
    resolveForeignKey tables child f = .ok r ↔
      ∃ p, tables.find? (·.name == f.parentTable) = some p ∧ f.resolve child p = .ok r := by
  unfold resolveForeignKey
  cases tables.find? (·.name == f.parentTable) with
  | none => simp
  | some p => simp

/-- What the definition of a foreign key says before the referenced table is known. -/
theorem readForeignKey_spec {columns : List Column} {table : Identifier} {e : Doc}
    {f : ForeignKey} (h : readForeignKey columns table e = .ok f) :
    f.name = e.get "name" ∧ f.enabled = fieldOr e "enabled" (.bool true) ∧
      resolveColumns columns .foreignKey table (e.get "columns") = .ok f.columns ∧
      makeIdentifier ((e.get "references").get "table").display
        ((e.get "references").get "schema") = .ok f.parentTable ∧
      readNames ((e.get "references").get "columns") = .ok f.parentColumns ∧
      readAction table (e.get "on_update") = .ok f.onUpdate ∧
      readAction table (e.get "on_delete") = .ok f.onDelete := by
  simp only [readForeignKey, bind_eq_ok_iff, Except.ok.injEq] at h
  obtain ⟨-, -, cs, hcs, -, -, text, htext, p, hp, ns, hns, u, hu, v, hv, rfl⟩ := h
  refine ⟨rfl, rfl, hcs, ?_, hns, hu, hv⟩
  unfold Doc.write at htext
  split at htext
  · obtain rfl := Except.ok.inj htext
    exact hp
  · cases htext

/-! ### Drafts -/

/-- What a table definition says of the name, the columns and the foreign keys of its draft. -/
theorem readTable_spec {e : Doc} {d : Draft} (h : readTable e = .ok d) :
    readName .table "table" e = .ok d.table.name ∧
      ∃ fs, (e.get "foreign_keys").parts? = some fs ∧
        List.Forall₂ (fun e f => readForeignKey d.table.columns d.table.name e = .ok f)
          fs d.foreignKeys := by
  simp only [readTable, bind_eq_ok_iff, Except.ok.injEq] at h
  obtain ⟨-, -, name, hname, cs, -, pk, -, us, -, is, -, ks, -, ts, -, fs, hfs, rfl⟩ := h
  exact ⟨hname, readList_eq_ok_iff.mp hfs⟩

/-- Tables are accepted if each is, and no name occurs twice. -/
theorem readTables_eq_ok_iff :
    ∀ {es : List Doc} {seen : List Identifier} {ds : List Draft},
      readTables seen es = .ok ds ↔
        List.Forall₂ (fun e d => readTable e = .ok d) es ds ∧
          (ds.map (·.table.name)).Nodup ∧ ∀ d ∈ ds, d.table.name ∉ seen
  | [], seen, ds => by
    rw [readTables, List.forall₂_nil_left_iff, Except.ok.injEq, eq_comm]
    refine ⟨?_, And.left⟩
    rintro rfl
    exact ⟨rfl, List.nodup_nil, fun d hd => absurd hd List.not_mem_nil⟩
  | e :: es, seen, ds => by
    have ih := fun seen ds => @readTables_eq_ok_iff es seen ds
    simp only [readTables, bind_eq_ok_iff, require_eq_ok_iff, ih, List.forall₂_cons_left_iff,
      Except.ok.injEq, Bool.not_eq_true', List.contains_eq_mem, decide_eq_false_iff_not]
    constructor
    -- the names seen so far grow by the name of each table, so later ones differ from it
    · rintro ⟨d, hd, -, hseen, ds, ⟨hds, hnodup, hnew⟩, rfl⟩
      refine ⟨⟨d, ds, hd, hds, rfl⟩, List.nodup_cons.mpr ⟨?_, hnodup⟩, ?_⟩
      · intro hmem
        obtain ⟨d', hd', heq⟩ := List.mem_map.mp hmem
        exact hnew d' hd' (List.mem_cons.mpr (.inl heq))
      · intro d' hd'
        rcases List.mem_cons.mp hd' with rfl | hd'
        · exact hseen
        · exact fun h => hnew d' hd' (List.mem_cons_of_mem _ h)
    · rintro ⟨⟨d, ds, hd, hds, rfl⟩, hnodup, hnew⟩
      obtain ⟨hfirst, hnodup⟩ := List.nodup_cons.mp hnodup
      refine ⟨d, hd, (), hnew d List.mem_cons_self, ds, ⟨hds, hnodup, ?_⟩, rfl⟩
      intro d' hd' h
      rcases List.mem_cons.mp h with heq | h
      · exact hfirst (List.mem_map.mpr ⟨d', hd', heq⟩)
      · exact hnew d' (List.mem_cons_of_mem d hd') h

/-! ### All tables -/

/-- The relationships that a table declares. -/
def declaredRelationships (tables : List Table) (d : Draft) : Except Failure (List Relationship) :=
  d.foreignKeys.mapM (resolveForeignKey tables d.table)

/-- The relationships that a draft declares, if all of them are accepted. -/
def Draft.relationships (tables : List Table) (d : Draft) : List Relationship :=
  (declaredRelationships tables d).toOption.getD []

/-- The table that linking makes of one of several drafts: it takes the relationships that the draft
declares, and those of all drafts that lead to it. -/
def linked (ds : List Draft) (d : Draft) : Table :=
  let tables := ds.map (·.table)
  { d.table with
    parentKeys := d.relationships tables
    childKeys := (ds.flatMap (·.relationships tables)).filter (·.parentTable == d.table.name) }

/-! ### The pass over the foreign keys -/

namespace Links

theorem collect_append_filter (key : Relationship → Identifier) (r : Relationship)
    (rs : List Relationship) (found : Identifier → List Relationship) (n : Identifier) :
    collect (key r) r found n ++ rs.filter (key · == n) =
      found n ++ (r :: rs).filter (key · == n) := by
  unfold collect
  by_cases h : n = key r
  · rw [if_pos h, List.filter_cons_of_pos (by simp [h]), List.append_assoc, List.singleton_append]
  · rw [if_neg h, List.filter_cons_of_neg (by simpa using Ne.symm h)]

/-- Under the name of a table, the pass collects the relationships whose child it is. -/
theorem parentKeys_foldl (n : Identifier) :
    ∀ (rs : List Relationship) (links : Links),
      (rs.foldl add links).parentKeys n = links.parentKeys n ++ rs.filter (·.childTable == n)
  | [], links => (List.append_nil _).symm
  | r :: rs, links => by
    rw [List.foldl_cons, parentKeys_foldl n rs]
    exact collect_append_filter (·.childTable) r rs links.parentKeys n

/-- Under the name of a table, the pass collects the relationships whose parent it is. -/
theorem childKeys_foldl (n : Identifier) :
    ∀ (rs : List Relationship) (links : Links),
      (rs.foldl add links).childKeys n = links.childKeys n ++ rs.filter (·.parentTable == n)
  | [], links => (List.append_nil _).symm
  | r :: rs, links => by
    rw [List.foldl_cons, childKeys_foldl n rs]
    exact collect_append_filter (·.parentTable) r rs links.childKeys n

end Links

/-- The pass fails at the first foreign key that is not accepted, and otherwise collects what all
tables declare. -/
theorem linkTables_eq (ds : List Draft) :
    linkTables ds =
      ds.mapM (declaredRelationships (ds.map (·.table))) >>= fun rss =>
        .ok ((ds.map (·.table)).map (rss.flatten.foldl Links.add {}).attach) := by
  have hdraft : linkDraft (ds.map (·.table)) = fun links d =>
      declaredRelationships (ds.map (·.table)) d >>= fun rs =>
        .ok (rs.foldl Links.add links) := by
    funext links d
    exact foldlM_eq_mapM
  rw [linkTables, hdraft, foldlM_eq_mapM]
  cases ds.mapM (declaredRelationships (ds.map (·.table))) with
  | error f => rfl
  | ok rss =>
    have hfold : rss.flatten.foldl Links.add {} = rss.foldl (List.foldl Links.add) {} :=
      List.foldl_flatten
    exact congrArg (fun links : Links => Except.ok ((ds.map (·.table)).map links.attach)) hfold.symm

/-- The relationships of a draft that is accepted are those of its foreign keys, in order. -/
theorem relationships_spec {tables : List Table} {d : Draft}
    (h : Accepted (declaredRelationships tables d)) :
    List.Forall₂ (fun f r => resolveForeignKey tables d.table f = .ok r) d.foreignKeys
      (d.relationships tables) := by
  obtain ⟨rs, hrs⟩ := h
  have heq : d.relationships tables = rs := by
    rw [Draft.relationships, hrs]
    rfl
  rw [heq]
  exact mapM_eq_ok_iff.mp hrs

/-- All relationships of a draft have it as their child. -/
theorem childTable_of_mem_relationships {tables : List Table} {d : Draft} {r : Relationship}
    (hr : r ∈ d.relationships tables) : r.childTable = d.table.name := by
  by_cases h : Accepted (declaredRelationships tables d)
  · obtain ⟨f, -, hf⟩ := exists_partner (relationships_spec h).flip r hr
    obtain ⟨p, -, hresolve⟩ := resolveForeignKey_eq_ok_iff.mp hf
    obtain ⟨k, -, -, rfl⟩ := resolve_eq_ok_iff.mp hresolve
    rfl
  · have hnone : d.relationships tables = [] := by
      unfold Draft.relationships
      cases hdeclared : declaredRelationships tables d with
      | ok rs => exact absurd ⟨rs, hdeclared⟩ h
      | error f => rfl
    rw [hnone] at hr
    exact absurd hr List.not_mem_nil

/-- Of the relationships of drafts with distinct names, those whose child is one of the drafts are
the ones that it declares. -/
theorem filter_childTable {tables : List Table} :
    ∀ {ds : List Draft}, (ds.map (·.table.name)).Nodup → ∀ d ∈ ds,
      (ds.flatMap (·.relationships tables)).filter (·.childTable == d.table.name) =
        d.relationships tables
  | e :: ds, hnames, d, hd => by
    obtain ⟨hnew, hnames⟩ := List.nodup_cons.mp hnames
    have hown (x : Draft) : (x.relationships tables).filter (·.childTable == x.table.name) =
        x.relationships tables :=
      List.filter_eq_self.mpr fun r hr => beq_iff_eq.mpr (childTable_of_mem_relationships hr)
    have hother {x : Draft} (h : x.table.name ≠ d.table.name) :
        (x.relationships tables).filter (·.childTable == d.table.name) = [] := by
      refine List.filter_eq_nil_iff.mpr fun r hr hchild => h ?_
      rw [← childTable_of_mem_relationships hr]
      exact eq_of_beq hchild
    rw [List.flatMap_cons, List.filter_append]
    rcases List.mem_cons.mp hd with rfl | hd
    · have hrest : (ds.flatMap (·.relationships tables)).filter (·.childTable == d.table.name) =
          [] := by
        rw [List.filter_flatMap]
        refine List.flatMap_eq_nil_iff.mpr fun x hx => hother fun heq => hnew ?_
        exact List.mem_map.mpr ⟨x, hx, heq⟩
      rw [hown, hrest, List.append_nil]
    · have hne : e.table.name ≠ d.table.name := fun heq =>
        hnew (List.mem_map.mpr ⟨d, hd, heq.symm⟩)
      rw [hother hne, List.nil_append, filter_childTable hnames d hd]

/-- **The two sides of linking.** Drafts with distinct names are linked if the foreign keys of each
are accepted; the answer has one table for each draft. -/
theorem linkTables_eq_ok_iff {ds : List Draft} {ts : List Table}
    (hnames : (ds.map (·.table.name)).Nodup) :
    linkTables ds = .ok ts ↔
      (∀ d ∈ ds, Accepted (declaredRelationships (ds.map (·.table)) d)) ∧
        ts = ds.map (linked ds) := by
  have hdeclared : ∀ {es : List Draft} {rss : List (List Relationship)},
      es.mapM (declaredRelationships (ds.map (·.table))) = .ok rss →
        rss = es.map (Draft.relationships (ds.map (·.table))) := by
    intro es rss h
    replace h := mapM_eq_ok_iff.mp h
    induction h with
    | nil => rfl
    | cons hrs _ ih => rw [List.map_cons, ← ih, Draft.relationships, hrs]; rfl
  have hlinked : ∀ {rss : List (List Relationship)},
      ds.mapM (declaredRelationships (ds.map (·.table))) = .ok rss →
        (ds.map (·.table)).map (rss.flatten.foldl Links.add {}).attach = ds.map (linked ds) := by
    intro rss h
    rw [hdeclared h, ← List.flatMap_def, List.map_map]
    refine List.map_congr_left fun d hd => ?_
    rw [Function.comp_apply, Links.attach, Links.parentKeys_foldl, Links.childKeys_foldl,
      filter_childTable hnames d hd]
    rfl
  simp only [linkTables_eq, bind_eq_ok_iff, Except.ok.injEq, ← accepted_mapM_iff]
  constructor
  · rintro ⟨rss, hrss, rfl⟩
    exact ⟨⟨rss, hrss⟩, hlinked hrss⟩
  · rintro ⟨⟨rss, hrss⟩, rfl⟩
    exact ⟨rss, hrss, hlinked hrss⟩

theorem linked_childKeys (ds : List Draft) (d : Draft) :
    (linked ds d).childKeys =
      ((ds.map (linked ds)).flatMap (·.parentKeys)).filter (·.parentTable == d.table.name) := by
  rw [List.flatMap_map]
  rfl

/-! ### Snapshots -/

/-- The sections of a snapshot are read one after the other, the tables in three steps. -/
theorem readDatabase_eq_ok_iff {d : Doc} {db : Database} :
    readDatabase d = .ok db ↔
      d.isMap = true ∧
        (∃ es ds, (d.get "tables").parts? = some es ∧ readTables [] es = .ok ds ∧
          linkTables ds = .ok db.tables) ∧
        readList readView (d.get "views") = .ok db.views ∧
        readList readSequence (d.get "sequences") = .ok db.sequences ∧
        readList readSynonym (d.get "synonyms") = .ok db.synonyms ∧
        readList readRoutine (d.get "routines") = .ok db.routines ∧
        ∃ ks, readList readKeyword (d.get "reserved_keywords") = .ok ks ∧
          db.reservedKeywords = Text.distinct ks := by
  rw [readDatabase, mapError_eq_ok_iff, readSections]
  by_cases hd : d.isMap = true
  · rw [if_pos hd]
    simp only [bind_eq_ok_iff, readParts_eq_ok_iff, Except.ok.injEq]
    constructor
    · rintro ⟨-, -, es, hes, ds, hds, ts, hts, vs, hvs, ss, hss, ys, hys, rs, hrs, ks, hks, rfl⟩
      exact ⟨hd, ⟨es, ds, hes, hds, hts⟩, hvs, hss, hys, hrs, ks, hks, rfl⟩
    · rintro ⟨-, ⟨es, ds, hes, hds, hts⟩, hvs, hss, hys, hrs, ks, hks, hdistinct⟩
      refine ⟨(), trivial, es, hes, ds, hds, _, hts, _, hvs, _, hss, _, hys, _, hrs, ks, hks, ?_⟩
      rw [← hdistinct]
  · rw [if_neg hd]
    constructor
    · intro h
      obtain ⟨u, hu, -⟩ := bind_eq_ok_iff.mp h
      cases hu
    · exact fun h => absurd h.1 hd

/-! ### Two tables for trying the laws -/

/-- A column of integers. -/
def integerColumn (name : String) : Doc :=
  .map [(.text "name", .text name), (.text "type", .text "int")]

/-- A reference to the table of persons. -/
def reference (column : String) : Doc :=
  .map [(.text "columns", .text column),
    (.text "references", .map [(.text "table", .text "person")])]

/-- A table with the same reference twice. -/
def badge : Doc :=
  .map [(.text "table", .text "badge"), (.text "columns", .list [integerColumn "owner"]),
    (.text "foreign_keys", .list [reference "owner", reference "owner"])]

/-- A table that references itself. -/
def person : Doc :=
  .map [(.text "table", .text "person"), (.text "columns", .list [integerColumn "id"]),
    (.text "primary_key", .text "id"), (.text "foreign_keys", .list [reference "id"])]

/-- A snapshot of some tables. -/
def staff (tables : List Doc) : Doc :=
  .map [(.text "tables", .list tables)]

end SchemaAudit.Snapshot
