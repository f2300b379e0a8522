import Mathlib.Data.List.Perm.Basic
import SchemaAudit.Proofs.Keyed
import SchemaAudit.Proofs.Snapshot.Linking
import SchemaAudit.Snapshot.Load
import SchemaAudit.Yaml.Node

/-!
# Snapshots in another order and in other files

A snapshot says the same in every order of its definitions, and however its lists are spread over
the files of a directory. Two runs of the loader are compared: both accept or neither does, and a
table is the same in both databases, except that `childKeys` follows the order of the tables.

- `linked_perm`: linking drafts in another order makes the same tables, up to `childKeys`.
- `Database.SameTables`: what two databases then have in common.
- `Rearranged`: the lists of two groups of documents have the same parts.
-/

namespace SchemaAudit

/-- Two tables differ at most in the order in which they know the relationships that lead to
them. -/
structure Table.SameButOrder (t u : Table) : Prop where
  same : u = { t with childKeys := u.childKeys }
  childKeys : t.childKeys.Perm u.childKeys

/-- Two databases have tables of the same names, and those of one name differ at most in the order
of the relationships that lead to them. -/
def Database.SameTables (db db' : Database) : Prop :=
  ∀ name, Option.Rel Table.SameButOrder (db.table? name) (db'.table? name)

namespace Snapshot

/-! ### Linking in another order -/

section Linking

variable {ds ds' : List Draft}

/-- A reference is resolved by name, so it does not matter where the referenced table stands. -/
theorem declaredRelationships_perm (hnames : (ds.map (·.table.name)).Nodup) (h : ds.Perm ds') :
    declaredRelationships (ds.map (·.table)) = declaredRelationships (ds'.map (·.table)) := by
  have hkeys : ((ds.map (·.table)).map (·.name)).Nodup := by
    rw [List.map_map]
    exact hnames
  funext d
  unfold declaredRelationships
  congr 1
  funext f
  unfold resolveForeignKey
  rw [find?_key_perm hkeys (h.map (·.table)) f.parentTable]

theorem linked_perm (hnames : (ds.map (·.table.name)).Nodup) (h : ds.Perm ds') (d : Draft) :
    (linked ds d).SameButOrder (linked ds' d) := by
  have hsame :
      Draft.relationships (ds.map (·.table)) = Draft.relationships (ds'.map (·.table)) := by
    funext d
    rw [Draft.relationships, Draft.relationships, declaredRelationships_perm hnames h]
  refine ⟨?_, ?_⟩
  · rw [linked, linked, hsame]
  -- the same relationships are collected, draft by draft in the other order
  · have hall : (ds.flatMap (Draft.relationships (ds.map (·.table)))).Perm
        (ds'.flatMap (Draft.relationships (ds'.map (·.table)))) := by
      rw [hsame]
      exact h.flatMap_right _
    exact hall.filter _

/-- Drafts in another order are accepted as well, and give the same tables in that order. -/
theorem linkTables_perm (hnames : (ds.map (·.table.name)).Nodup) (h : ds.Perm ds')
    {ts : List Table} (hts : linkTables ds = .ok ts) :
    linkTables ds' = .ok (ds'.map (linked ds')) := by
  obtain ⟨haccepted, -⟩ := (linkTables_eq_ok_iff hnames).mp hts
  rw [declaredRelationships_perm hnames h] at haccepted
  have hnames' := (h.map (·.table.name)).nodup_iff.mp hnames
  exact (linkTables_eq_ok_iff hnames').mpr ⟨fun d hd => haccepted d (h.mem_iff.mpr hd), rfl⟩

/-- Table definitions in another order are read into the same drafts in that order. -/
theorem readTables_perm {es es' : List Doc} (h : es.Perm es') (hds : readTables [] es = .ok ds) :
    ∃ ds', readTables [] es' = .ok ds' ∧ ds.Perm ds' := by
  obtain ⟨hread, hnames, -⟩ := readTables_eq_ok_iff.mp hds
  obtain ⟨ds', hread', hperm⟩ := List.perm_comp_forall₂ h.symm hread
  refine ⟨ds', readTables_eq_ok_iff.mpr ⟨hread', ?_, fun _ _ => List.not_mem_nil⟩, hperm.symm⟩
  exact (hperm.map (·.table.name)).nodup_iff.mpr hnames

/-- The table of a name among linked tables, found by way of its draft. -/
theorem find?_linked (ds es : List Draft) (name : Identifier) :
    (es.map (linked ds)).find? (·.name == name) =
      (es.find? (·.table.name == name)).map (linked ds) := by
  rw [List.find?_map]
  rfl

theorem sameTables_of_perm (hnames : (ds.map (·.table.name)).Nodup) (h : ds.Perm ds')
    {db db' : Database} (htables : db.tables = ds.map (linked ds))
    (htables' : db'.tables = ds'.map (linked ds')) : db.SameTables db' := by
  intro name
  rw [Database.table?, Database.table?, htables, htables', find?_linked, find?_linked,
    find?_key_perm hnames h name]
  cases ds'.find? (·.table.name == name) with
  | none => exact .none
  | some d => exact .some (linked_perm hnames h d)

end Linking

/-! ### Sections in another order -/

/-- The sections of two documents have the same parts. -/
def SameSections (d d' : Doc) : Prop :=
  ∀ name ∈ sections, ∃ es es', (d.get name).parts? = some es ∧ (d'.get name).parts? = some es' ∧
    es.Perm es'

theorem SameSections.symm {d d' : Doc} (h : SameSections d d') : SameSections d' d := by
  intro name hname
  obtain ⟨es, es', hes, hes', hperm⟩ := h name hname
  exact ⟨es', es, hes', hes, hperm.symm⟩

/-- A section whose parts are read one by one is accepted in every order. -/
theorem readList_of_sameSections {d d' : Doc} (h : SameSections d d') {α : Type}
    {read : Doc → Except Failure α} {name : String} (hname : name ∈ sections) {as : List α}
    (has : readList read (d.get name) = .ok as) : ∃ as', readList read (d'.get name) = .ok as' := by
  obtain ⟨es, es', hes, hes', hperm⟩ := h name hname
  obtain ⟨fs, hfs, hread⟩ := readList_eq_ok_iff.mp has
  obtain rfl : es = fs := Option.some.inj (hes.symm.trans hfs)
  obtain ⟨as', hread', -⟩ := List.perm_comp_forall₂ hperm.symm hread
  exact ⟨as', readList_eq_ok_iff.mpr ⟨es', hes', hread'⟩⟩

/-- A database described in another order is accepted as well, and has the same tables. -/
theorem readDatabase_of_sameSections {d d' : Doc} (h : SameSections d d')
    (hmap : d'.isMap = true) {db : Database} (hdb : readDatabase d = .ok db) :
    ∃ db', readDatabase d' = .ok db' ∧ db.SameTables db' := by
  obtain ⟨-, ⟨es, ds, hes, hds, hts⟩, hvs, hss, hys, hrs, ks, hks, -⟩ :=
    readDatabase_eq_ok_iff.mp hdb
  obtain ⟨fs, es', hfs, hes', hperm⟩ := h "tables" (by decide)
  obtain rfl : es = fs := Option.some.inj (hes.symm.trans hfs)
  obtain ⟨ds', hds', hdrafts⟩ := readTables_perm hperm hds
  have hnames := (readTables_eq_ok_iff.mp hds).2.1
  -- the other sections need only be accepted: nothing is said of their objects
  obtain ⟨vs, hvs'⟩ := readList_of_sameSections h (by decide) hvs
  obtain ⟨ss, hss'⟩ := readList_of_sameSections h (by decide) hss
  obtain ⟨ys, hys'⟩ := readList_of_sameSections h (by decide) hys
  obtain ⟨rs, hrs'⟩ := readList_of_sameSections h (by decide) hrs
  obtain ⟨ks', hks'⟩ := readList_of_sameSections h (by decide) hks
  refine ⟨⟨ds'.map (linked ds'), vs, ss, ys, rs, Text.distinct ks'⟩, ?_, ?_⟩
  · exact readDatabase_eq_ok_iff.mpr ⟨hmap,
      ⟨es', ds', hes', hds', linkTables_perm hnames hdrafts hts⟩,
      hvs', hss', hys', hrs', ks', hks', rfl⟩
  · exact sameTables_of_perm hnames hdrafts ((linkTables_eq_ok_iff hnames).mp hts).2 rfl

/-- Two runs on the same sections: both accept or neither, and the tables agree. -/
structure Agree (x x' : Except Failure Database) : Prop where
  accepted : Accepted x ↔ Accepted x'
  tables : ∀ db db', x = .ok db → x' = .ok db' → db.SameTables db'

theorem SameSections.agree {d d' : Doc} (h : SameSections d d') (hmap : d.isMap = true)
    (hmap' : d'.isMap = true) : Agree (readDatabase d) (readDatabase d') := by
  refine ⟨⟨?_, ?_⟩, ?_⟩
  · rintro ⟨db, hdb⟩
    obtain ⟨db', hdb', -⟩ := readDatabase_of_sameSections h hmap' hdb
    exact ⟨db', hdb'⟩
  · rintro ⟨db, hdb⟩
    obtain ⟨db', hdb', -⟩ := readDatabase_of_sameSections h.symm hmap hdb
    exact ⟨db', hdb'⟩
  · intro db db' hdb hdb'
    obtain ⟨db'', hdb'', hsame⟩ := readDatabase_of_sameSections h hmap' hdb
    obtain rfl := Except.ok.inj (hdb'.symm.trans hdb'')
    exact hsame

/-! ### Lists spread over files -/

/-- Every field of a document is a list. -/
def ListFields (d : Doc) : Prop :=
  ∀ e ∈ d.entries, ∃ es, e.2 = .list es

/-- A field is a list or absent. -/
theorem ListFields.get {d : Doc} (h : ListFields d) (name : String) :
    (∃ es, d.get name = .list es) ∨ d.get name = .null := by
  unfold Doc.get
  cases hv : d.get? name with
  | none => exact .inr rfl
  | some v =>
    cases d with
    | map es =>
      obtain ⟨fs, hfs⟩ := h _ (fieldOf?_mem hv)
      exact .inl ⟨fs, hfs⟩
    | _ => cases hv

theorem ListFields.parts {d : Doc} (h : ListFields d) (name : String) :
    ∃ es, (d.get name).parts? = some es := by
  rcases h.get name with ⟨es, hes⟩ | hnull
  · exact ⟨es, by rw [hes, parts?_list]⟩
  · exact ⟨[], by rw [hnull]; rfl⟩

theorem checkSections_eq_ok_iff {d : Doc} (h : ListFields d) {u : Unit} :
    checkSections d = .ok u ↔ ∀ k ∈ d.entries.map (·.1), k ∈ sections.map Doc.text := by
  rw [checkSections, bind_eq_ok_iff]
  simp only [requireKnown_eq_ok_iff]
  constructor
  · exact fun ⟨_, hknown, _⟩ => hknown
  · intro hknown
    refine ⟨(), hknown, forM_eq_ok_iff.mpr fun name _ => ?_⟩
    obtain ⟨es, hes⟩ := h.parts name
    exact bind_eq_ok_iff.mpr ⟨es, readParts_eq_ok_iff.mpr hes, rfl⟩

/-- No field of a document is outside the sections of a snapshot. -/
def KnownFields (d : Doc) : Prop :=
  ∀ k ∈ d.entries.map (·.1), k ∈ sections.map Doc.text

/-- The lists of two groups of documents have the same parts, and a field outside the sections of a
snapshot is in both groups or in neither. -/
structure Rearranged (ds ds' : List Doc) : Prop where
  parts : ∀ name ∈ sections, (sectionParts ds name).Perm (sectionParts ds' name)
  others : ∀ k ∉ sections.map Doc.text,
    (∃ d ∈ ds, k ∈ d.entries.map (·.1)) ↔ ∃ d ∈ ds', k ∈ d.entries.map (·.1)

theorem Rearranged.symm {ds ds' : List Doc} (h : Rearranged ds ds') : Rearranged ds' ds :=
  ⟨fun name hname => (h.parts name hname).symm, fun k hk => (h.others k hk).symm⟩

theorem Rearranged.knownFields {ds ds' : List Doc} (h : Rearranged ds ds')
    (hknown : ∀ d ∈ ds, KnownFields d) : ∀ d ∈ ds', KnownFields d := by
  intro d hd k hk
  by_contra hunknown
  obtain ⟨e, he, hke⟩ := (h.others k hunknown).mpr ⟨d, hd, hk⟩
  exact hunknown (hknown e he k hke)

/-- Where all fields are sections, only the parts of the sections matter. -/
theorem rearranged_of_known {ds ds' : List Doc}
    (hparts : ∀ name ∈ sections, (sectionParts ds name).Perm (sectionParts ds' name))
    (hknown : ∀ d ∈ ds, KnownFields d) (hknown' : ∀ d ∈ ds', KnownFields d) :
    Rearranged ds ds' := by
  refine ⟨hparts, fun k hk => ⟨?_, ?_⟩⟩
  · rintro ⟨d, hd, hkd⟩
    exact absurd (hknown d hd k hkd) hk
  · rintro ⟨d, hd, hkd⟩
    exact absurd (hknown' d hd k hkd) hk

theorem fieldOf?_map {f : String → Doc} {name : String} :
    ∀ {names : List String}, name ∈ names →
      Doc.fieldOf? name (names.map fun n => (.text n, f n)) = some (f name)
  | n :: names, h => by
    rw [List.map_cons, Doc.fieldOf?]
    by_cases hn : Doc.text n = Doc.text name
    · rw [if_pos hn, Doc.text.inj hn]
    · rw [if_neg hn]
      refine fieldOf?_map ((List.mem_cons.mp h).resolve_left fun heq => hn ?_)
      rw [heq]

theorem get_combine (ds : List Doc) {name : String} (h : name ∈ sections) :
    (combine ds).get name = .list (sectionParts ds name) := by
  show (Doc.fieldOf? name
    (sections.map fun n => (.text n, .list (sectionParts ds n)))).getD .null = _
  rw [fieldOf?_map h]
  rfl

theorem Rearranged.sameSections {ds ds' : List Doc} (h : Rearranged ds ds') :
    SameSections (combine ds) (combine ds') := by
  intro name hname
  refine ⟨_, _, ?_, ?_, h.parts name hname⟩
  · rw [get_combine ds hname, parts?_list]
  · rw [get_combine ds' hname, parts?_list]

theorem readDocuments_eq_ok_iff {ds : List Doc} (h : ∀ d ∈ ds, ListFields d) {db : Database} :
    readDocuments ds = .ok db ↔
      (∀ d ∈ ds, KnownFields d) ∧ readDatabase (combine ds) = .ok db := by
  rw [readDocuments, bind_eq_ok_iff]
  simp only [forM_eq_ok_iff]
  constructor
  · rintro ⟨-, hcheck, hdb⟩
    exact ⟨fun d hd => (checkSections_eq_ok_iff (h d hd)).mp (hcheck d hd), hdb⟩
  · rintro ⟨hknown, hdb⟩
    exact ⟨(), fun d hd => (checkSections_eq_ok_iff (h d hd)).mpr (hknown d hd), hdb⟩

theorem Rearranged.readDocuments {ds ds' : List Doc} (h : Rearranged ds ds')
    (hlists : ∀ d ∈ ds, ListFields d) (hlists' : ∀ d ∈ ds', ListFields d) :
    Agree (Snapshot.readDocuments ds) (Snapshot.readDocuments ds') := by
  have hagree := h.sameSections.agree rfl rfl
  constructor
  · simp only [Accepted, readDocuments_eq_ok_iff hlists, readDocuments_eq_ok_iff hlists',
      exists_and_left]
    exact and_congr ⟨h.knownFields, h.symm.knownFields⟩ hagree.accepted
  · intro db db' hdb hdb'
    exact hagree.tables db db' ((readDocuments_eq_ok_iff hlists).mp hdb).2
      ((readDocuments_eq_ok_iff hlists').mp hdb').2

/-- The files of the snapshot at the end of a path hold the given documents, in the order in which
they are read. -/
def Holds [Yaml.Library] (t : FileTree) (p : Path) (ds : List Doc) : Prop :=
  ∃ ps, files? t p = some ps ∧ ps.mapM (fileMapping t) = .ok ds

theorem Holds.load [Yaml.Library] {t : FileTree} {p : Path} {ds : List Doc}
    (h : Holds t p ds) : load t p = Snapshot.readDocuments ds := by
  obtain ⟨ps, hfiles, hds⟩ := h
  unfold Snapshot.load
  rw [hfiles]
  show (ps.mapM (fileMapping t) >>= Snapshot.readDocuments) = _
  rw [hds]
  rfl

/-- **Order and files do not matter.** Two snapshots whose sections have the same parts are both
accepted or both refused, and have the same tables up to the order of `childKeys`. The same holds of
two snapshots in files whose fields are lists, however these are spread over the files. -/
theorem snapshot_agree [Yaml.Library] :
    (∀ d d' : Doc, d.isMap = true → d'.isMap = true → SameSections d d' →
      Agree (readDatabase d) (readDatabase d')) ∧
    ∀ (t t' : FileTree) (p p' : Path) (ds ds' : List Doc), Holds t p ds → Holds t' p' ds' →
      (∀ d ∈ ds, ListFields d) → (∀ d ∈ ds', ListFields d) → Rearranged ds ds' →
      Agree (load t p) (load t' p') := by
  refine ⟨fun d d' hmap hmap' h => h.agree hmap hmap', ?_⟩
  intro t t' p p' ds ds' hds hds' hlists hlists' h
  rw [hds.load, hds'.load]
  exact h.readDocuments hlists hlists'

theorem listFields_staff (tables : List Doc) : ListFields (staff tables) := by
  intro e he
  obtain rfl := List.mem_singleton.mp he
  exact ⟨tables, rfl⟩

theorem knownFields_staff (tables : List Doc) : KnownFields (staff tables) := by
  intro k hk
  obtain rfl := List.mem_singleton.mp hk
  show Doc.text "tables" ∈ sections.map Doc.text
  decide

theorem sameSections_staff {tables tables' : List Doc} (h : tables.Perm tables') :
    SameSections (staff tables) (staff tables') := by
  intro name _
  by_cases hname : Doc.text "tables" = Doc.text name
  · obtain rfl := Doc.text.inj hname
    exact ⟨tables, tables', parts?_list tables, parts?_list tables', h⟩
  · have hnull : ∀ ts, (staff ts).get name = .null := by
      intro ts
      show (if Doc.text "tables" = Doc.text name then some (Doc.list ts) else none).getD .null = _
      rw [if_neg hname]
      rfl
    refine ⟨[], [], ?_, ?_, .nil⟩
    · rw [hnull]
      rfl
    · rw [hnull]
      rfl

/-- A snapshot in one file. -/
def oneFile : FileTree :=
  ⟨[({ names := ["staff.yaml"] }, .file (.document (staff [badge, person])))]⟩

/-- The same snapshot in a directory, the referenced table in the first file. -/
def twoFiles : FileTree :=
  ⟨[({ names := ["staff"] }, .directory),
    ({ names := ["staff", "b.yaml"] }, .file (.document (staff [badge]))),
    ({ names := ["staff", "a.yaml"] }, .file (.document (staff [person])))]⟩

theorem staff_agree :
    Accepted (load oneFile ⟨"", ["staff.yaml"]⟩) ∧
      Agree (readDatabase (staff [badge, person])) (readDatabase (staff [person, badge])) ∧
      Agree (load oneFile ⟨"", ["staff.yaml"]⟩) (load twoFiles ⟨"", ["staff"]⟩) := by
  have hparts : ∀ name ∈ sections, (sectionParts [staff [badge, person]] name).Perm
      (sectionParts [staff [person], staff [badge]] name) := by decide +kernel
  have hone : Holds oneFile ⟨"", ["staff.yaml"]⟩ [staff [badge, person]] :=
    ⟨[⟨"", ["staff.yaml"]⟩], by decide +kernel, by decide +kernel⟩
  have htwo : Holds twoFiles ⟨"", ["staff"]⟩ [staff [person], staff [badge]] :=
    ⟨[⟨"", ["staff", "a.yaml"]⟩, ⟨"", ["staff", "b.yaml"]⟩], by decide +kernel, by decide +kernel⟩
  have haccepted : Accepted (load oneFile ⟨"", ["staff.yaml"]⟩) := by decide +kernel
  refine ⟨haccepted, snapshot_agree.1 _ _ rfl rfl (sameSections_staff (.swap _ _ _)),
    snapshot_agree.2 _ _ _ _ _ _ hone htwo ?_ ?_ (rearranged_of_known hparts ?_ ?_)⟩
  · exact List.forall_mem_singleton.mpr (listFields_staff _)
  · exact List.forall_mem_cons.mpr
      ⟨listFields_staff _, List.forall_mem_singleton.mpr (listFields_staff _)⟩
  · exact List.forall_mem_singleton.mpr (knownFields_staff _)
  · exact List.forall_mem_cons.mpr
      ⟨knownFields_staff _, List.forall_mem_singleton.mpr (knownFields_staff _)⟩

end Snapshot
end SchemaAudit
