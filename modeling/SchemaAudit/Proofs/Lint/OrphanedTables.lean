import SchemaAudit.Proofs.Lint.Messages
import SchemaAudit.Proofs.Snapshot.PartNames

/-!
# Tables without relations

The rule about tables without relations looks at the two lists of relationships that linking gives a
table. Here stands what it says of a snapshot: a table is reported exactly if its definition has no
foreign key, and no foreign key in the definition of any table names it. Names are compared as
definitions spell them, a local name and a schema, where a blank schema is the same as none.

- `Snapshot.declaredName`, `Snapshot.Isolated`: names and references in definitions.
- `parentKeys_eq_nil_iff`, `childKeys_eq_nil_iff`: what definitions say of each list.
- `orphanedTable_reported_iff`: a table is reported if and only if its definition is isolated.
-/

namespace SchemaAudit

/-! ### Definitions -/

namespace Snapshot

/-- The name of a table as a mapping gives it in the fields `table` and `schema`. A schema may be
absent or blank. -/
def declaredName (d : Doc) : String × Option String :=
  let schema := d.get "schema"
  ((d.get "table").display,
    if schema = .null ∨ Text.isBlankString schema.display then none else some schema.display)

/-- The foreign keys in the definition of a table. -/
def declaredKeys (e : Doc) : List Doc :=
  (e.get "foreign_keys").parts?.getD []

/-- The definition of a foreign key refers to the table with the given definition. -/
def RefersTo (f e : Doc) : Prop :=
  declaredName (f.get "references") = declaredName e

/-- Among the definitions of all tables, that of a table has no foreign key, and no foreign key of
any table refers to it. -/
def Isolated (es : List Doc) (e : Doc) : Prop :=
  declaredKeys e = [] ∧ ∀ x ∈ es, ∀ f ∈ declaredKeys x, ¬ RefersTo f e

/-- The identifier of a local name and a schema. -/
def identifierOf : String × Option String → Identifier
  | (name, none) => ⟨name, .bare⟩
  | (name, some schema) => ⟨name, .schema schema⟩

theorem identifierOf_inj {x y : String × Option String} :
    identifierOf x = identifierOf y ↔ x = y := by
  obtain ⟨n, s⟩ := x
  obtain ⟨m, r⟩ := y
  cases s with
  | none =>
    cases r with
    | none => simp [identifierOf]
    | some _ => simp [identifierOf]
  | some _ =>
    cases r with
    | none => simp [identifierOf]
    | some _ => simp [identifierOf]

theorem display_of_write {d : Doc} {s : String} (h : d.write = .ok s) : s = d.display := by
  unfold Doc.write at h
  split at h
  · exact (Except.ok.inj h).symm
  · cases h

/-- The identifier that is made of a name is that of its local name and its schema. -/
theorem makeIdentifier_spec {d : Doc} {i : Identifier}
    (h : makeIdentifier (d.get "table").display (d.get "schema") = .ok i) :
    i = identifierOf (declaredName d) := by
  obtain ⟨text, htext, h⟩ := bind_eq_ok_iff.mp h
  obtain rfl := display_of_write htext
  have hfields : Identifier.ofFields (declaredName d).1 (declaredName d).2 none none = .ok i := by
    dsimp only [declaredName]
    dsimp only at h
    split at h
    · next hname =>
      obtain rfl := Except.ok.inj h
      exact hname
    · cases h
  unfold Identifier.ofFields at hfields
  dsimp only at hfields
  split at hfields
  · cases hfields
  · generalize declaredName d = x at hfields ⊢
    obtain ⟨name, schema⟩ := x
    cases schema with
    | none => exact (Except.ok.inj hfields).symm
    | some schema => exact (Except.ok.inj hfields).symm

theorem readName_spec {e : Doc} {i : Identifier} (h : readName .table "table" e = .ok i) :
    i = identifierOf (declaredName e) := by
  obtain ⟨-, -, h⟩ := bind_eq_ok_iff.mp h
  obtain ⟨text, htext, h⟩ := bind_eq_ok_iff.mp h
  obtain ⟨-, -, h⟩ := bind_eq_ok_iff.mp h
  obtain rfl := display_of_write htext
  exact makeIdentifier_spec h

/-! ### Relationships -/

/-- A foreign key refers to the definition of a table if its relationship leads to that table. -/
theorem refersTo_iff {f e : Doc} {p : Table} {r : Relationship} {i : Identifier}
    (hf : DeclaredBy f p r) (he : readName .table "table" e = .ok i) :
    RefersTo f e ↔ r.parentTable = i := by
  rw [makeIdentifier_spec hf.table, readName_spec he, identifierOf_inj]
  exact Iff.rfl

variable {es : List Doc} {ds : List Draft} {db : Database}

/-- The relationships that a table declares are as many as the foreign keys in its definition. -/
theorem parentKeys_eq_nil_iff (h : Drafted es ds) (htables : db.tables = ds.map (linked ds))
    {e : Doc} {d : Draft} (he : readTable e = .ok d) (hd : d ∈ ds) :
    (linked ds d).parentKeys = [] ↔ declaredKeys e = [] := by
  obtain ⟨fs, hfs, hdeclared⟩ := h.declared he hd htables
  have hlength := hdeclared.length_eq
  unfold declaredKeys
  rw [hfs, ← List.length_eq_zero_iff, ← hlength]
  exact List.length_eq_zero_iff

/-- A relationship leads to a table if and only if a foreign key in some definition refers to the
definition of this table. -/
theorem childKeys_eq_nil_iff (h : Drafted es ds) (htables : db.tables = ds.map (linked ds))
    {e : Doc} {d : Draft} (he : readTable e = .ok d) :
    (linked ds d).childKeys = [] ↔ ∀ x ∈ es, ∀ f ∈ declaredKeys x, ¬ RefersTo f e := by
  have hname := (readTable_spec he).1
  rw [linked_childKeys, List.filter_eq_nil_iff, List.flatMap_map]
  simp only [List.mem_flatMap, beq_iff_eq, forall_exists_index, and_imp]
  constructor
  · intro hnone x hx f hf hrefers
    obtain ⟨dx, hdx, hreadx⟩ := exists_partner h.read x hx
    obtain ⟨fs, hfs, hdeclared⟩ := h.declared hreadx hdx htables
    have hmem : f ∈ fs := by
      rw [declaredKeys, hfs] at hf
      exact hf
    obtain ⟨r, hr, -, p, -, -, hfr⟩ := exists_partner hdeclared f hmem
    exact hnone r dx hdx hr ((refersTo_iff hfr hname).mp hrefers)
  · intro hnone r dx hdx hr hparent
    obtain ⟨x, hx, hreadx⟩ := exists_partner h.read.flip dx hdx
    obtain ⟨fs, hfs, hdeclared⟩ := h.declared hreadx hdx htables
    obtain ⟨f, hf, -, p, -, -, hfr⟩ := exists_partner hdeclared.flip r hr
    have hmem : f ∈ declaredKeys x := by
      rw [declaredKeys, hfs]
      exact hf
    exact hnone x hx f hmem ((refersTo_iff hfr hname).mpr hparent)

end Snapshot

/-! ### Messages -/

/-- Some message of the rule about tables without relations is about the table. -/
def TellsOrphaned (ms : List Message) (t : Table) : Prop :=
  ∃ m ∈ ms, m.ruleId = RuleKind.orphanedTable.id ∧ m.target = some t.name

theorem eq_orphanedTable_of_kind {i : Inspection} (h : i.kind = .orphanedTable) :
    i = .orphanedTable := by
  cases i with
  | orphanedTable => rfl
  | _ => cases h

theorem orphaned_ne_nil_iff (t : Table) :
    Lint.orphaned t ≠ [] ↔ t.parentKeys = [] ∧ t.childKeys = [] := by
  unfold Lint.orphaned
  split
  · next h =>
    rw [Bool.and_eq_true, List.isEmpty_iff, List.isEmpty_iff] at h
    simp [h]
  · next h =>
    rw [Bool.and_eq_true, List.isEmpty_iff, List.isEmpty_iff] at h
    simp [h]

theorem ofTable_orphanedTable_ne_nil_iff (t : Table) :
    Inspection.orphanedTable.ofTable t ≠ [] ↔ t.parentKeys = [] ∧ t.childKeys = [] := by
  rw [← orphaned_ne_nil_iff]
  exact not_congr List.map_eq_nil_iff

/-- With the rule on, a table is reported if it has no relationship in either direction. -/
theorem tellsOrphaned_lint_iff {rules : List Rule} {db : Database} {t : Table}
    (hon : ∃ r ∈ rules, r.inspection = .orphanedTable)
    (hnames : (db.tables.map (·.name)).Nodup) (ht : t ∈ db.tables) :
    TellsOrphaned (lint rules db) t ↔ t.parentKeys = [] ∧ t.childKeys = [] := by
  have hfindings {f : Finding} := Inspection.mem_findings_iff (i := .orphanedTable) nofun nofun rfl
    (d := db) (f := f)
  rw [← ofTable_orphanedTable_ne_nil_iff]
  constructor
  · rintro ⟨m, hm, hid, htarget⟩
    obtain ⟨r, -, c, hc, f, hf, rfl⟩ := mem_lint_iff.mp hm
    have hinspection : r.inspection = .orphanedTable :=
      eq_orphanedTable_of_kind (RuleKind.eq_of_id_eq hid)
    rw [hinspection] at hf
    obtain ⟨u, hu, text, htext, rfl⟩ := hfindings.mp ⟨c, hc, hf⟩
    -- no other table has the name that the message shows
    have heq : u = t := eq_of_key_eq hnames hu ht (Option.some.inj htarget)
    exact List.ne_nil_of_mem (heq ▸ htext)
  · intro hne
    obtain ⟨text, htext⟩ := List.exists_mem_of_ne_nil _ hne
    obtain ⟨r, hr, hinspection⟩ := hon
    obtain ⟨c, hc, hf⟩ := hfindings.mpr ⟨t, ht, text, htext, rfl⟩
    refine ⟨r.message (t.name, text), ?_, ?_, rfl⟩
    · exact mem_lint_iff.mpr ⟨r, hr, c, hc, _, hinspection ▸ hf, rfl⟩
    · show r.inspection.kind.id = RuleKind.orphanedTable.id
      rw [hinspection]
      rfl

/-- The rule shows no names of parts, so by itself it reaches all tables. -/
theorem showsUnwritable_orphanedTable {rules : List Rule}
    (h : ∀ r ∈ rules, r.inspection = .orphanedTable) (ts : List Table) :
    showsUnwritable rules ts = false := by
  refine showsUnwritable_eq_false_iff.mpr fun r hr t _ n hn => ?_
  rw [h r hr] at hn
  exact absurd hn List.not_mem_nil

namespace Snapshot

/-- How runs of rules over a database tell of its table `t`, where `isolated` says whether the
definition of the table is isolated. -/
structure ToldOrphaned (db : Database) (t : Table) (isolated : Prop) : Prop where
  /-- A run with the rule that gives its messages reports the table if it is isolated. -/
  reported : ∀ rules, (∃ r ∈ rules, r.inspection = .orphanedTable) →
    ∀ ms, report rules db = .ok ms → (TellsOrphaned ms t ↔ isolated)
  /-- The rule by itself always gives its messages. -/
  alone : ∀ r, r.inspection = .orphanedTable → ∃ ms, report [r] db = .ok ms

/-- **Tables without relations.** Whatever other rules are on besides, a run over the tables of an
accepted snapshot reports one of them to be without relations if and only if its definition has no
foreign key and no foreign key of any definition refers to it. Definitions and tables stand in the
same order. A run gives its messages unless another rule shows a name that cannot be written, which
no rule does where all integers in the snapshot have a text. -/
theorem orphanedTable_reported_iff {d : Doc} {db : Database} (h : readDatabase d = .ok db) :
    (∃ es, (d.get "tables").parts? = some es ∧
      List.Forall₂ (fun e t => t.name = identifierOf (declaredName e) ∧
        ToldOrphaned db t (Isolated es e)) es db.tables) ∧
      ∀ rules, ((∃ ms, report rules db = .ok ms) ↔ showsUnwritable rules db.tables = false) ∧
        (showsUnwritable rules db.tables = true → report rules db = .error .unwritable) ∧
        (d.IntegersWritable → showsUnwritable rules db.tables = false) := by
  obtain ⟨es, ds, hes, hdrafted, htables⟩ := drafted_of_readDatabase h
  refine ⟨⟨es, hes, ?_⟩, fun rules => ⟨?_, ?_, ?_⟩⟩
  · have hnames : (db.tables.map (·.name)).Nodup := by
      rw [htables, List.map_map]
      exact hdrafted.names
    rw [htables, List.forall₂_map_right_iff]
    refine (pairs_with_mem hdrafted.read).imp ?_
    rintro e dt ⟨he, hdt⟩
    have ht : linked ds dt ∈ db.tables := htables ▸ List.mem_map_of_mem hdt
    refine ⟨readName_spec (readTable_spec he).1, ⟨fun rules hon ms hms => ?_, fun r hr => ?_⟩⟩
    · obtain ⟨-, rfl⟩ := report_eq_ok_iff.mp hms
      rw [tellsOrphaned_lint_iff hon hnames ht, parentKeys_eq_nil_iff hdrafted htables he hdt,
        childKeys_eq_nil_iff hdrafted htables he]
      exact Iff.rfl
    · have halone : ∀ r' ∈ [r], r'.inspection = .orphanedTable :=
        fun r' hr' => List.mem_singleton.mp hr' ▸ hr
      exact ⟨_, report_eq_ok_iff.mpr ⟨showsUnwritable_orphanedTable halone _, rfl⟩⟩
  · simp only [report_eq_ok_iff, exists_and_left, exists_eq, and_true]
  · exact report_eq_error_iff.mpr
  · exact fun hd => showsUnwritable_of_integersWritable h hd rules

/-! ### Rooms -/

/-- A table of rooms in a schema. -/
def rooms (schema : String) : Doc :=
  .map [(.text "table", .text "room"), (.text "schema", .text schema),
    (.text "columns", .list [integerColumn "number"]), (.text "primary_key", .text "number")]

/-- A table whose column refers to the rooms in a schema. -/
def keys (schema : String) : Doc :=
  .map [(.text "table", .text "key"), (.text "columns", .list [integerColumn "room"]),
    (.text "foreign_keys", .list [.map [(.text "columns", .text "room"),
      (.text "references", .map [(.text "table", .text "room"), (.text "schema", .text schema)])]])]

/-- The reference to a blank schema leads to the rooms without one, which come behind it. The rooms
of another schema are the only table without relations: persons refer to themselves. -/
theorem rooms_reported :
    ∃ db es, readDatabase (staff [keys "  ", person, rooms "", rooms "annex"]) = .ok db ∧
      ((staff [keys "  ", person, rooms "", rooms "annex"]).get "tables").parts? = some es ∧
      List.Forall₂ (fun e t => t.name = identifierOf (declaredName e) ∧
        ToldOrphaned db t (Isolated es e)) es db.tables ∧
      (report [⟨.disabledObjects, .warning⟩, ⟨.orphanedTable, .warning⟩] db).map
          (fun ms => ms.map (·.target)) =
        .ok [some ⟨"room", .schema "annex"⟩] := by
  have hread : ∃ db,
      readDatabase (staff [keys "  ", person, rooms "", rooms "annex"]) = .ok db ∧
        (report [⟨.disabledObjects, .warning⟩, ⟨.orphanedTable, .warning⟩] db).map
            (fun ms => ms.map (·.target)) =
          .ok [some ⟨"room", .schema "annex"⟩] := by
    decide +kernel
  obtain ⟨db, hdb, htargets⟩ := hread
  obtain ⟨⟨es, hes, htold⟩, -⟩ := orphanedTable_reported_iff hdb
  exact ⟨db, es, hdb, hes, htold, htargets⟩

/-- A run of all rules over parcels without relations does not report them: the rule about disabled
objects comes first, and it cannot write the name of the index. -/
theorem parcels_unreported :
    ∃ db t rules, readDatabase (staff [parcel (.int longNumber)]) = .ok db ∧ db.tables = [t] ∧
      Isolated [parcel (.int longNumber)] (parcel (.int longNumber)) ∧
      ({} : Selection).build [] = .ok rules ∧ (∃ r ∈ rules, r.inspection = .orphanedTable) ∧
      ¬ ∃ ms, report rules db = .ok ms ∧ TellsOrphaned ms t := by
  have hrun : ∃ db, readDatabase (staff [parcel (.int longNumber)]) = .ok db ∧
      ∃ rules, ({} : Selection).build [] = .ok rules ∧
        db.tables.length = 1 ∧ declaredKeys (parcel (.int longNumber)) = [] ∧
        (∃ r ∈ rules, r.inspection = .orphanedTable) ∧
        ∃ r ∈ rules, ∃ t ∈ db.tables, .int longNumber ∈ r.inspection.shownNames t := by
    decide +kernel
  obtain ⟨db, hdb, rules, hrules, hlength, hkeys, hon, hshown⟩ := hrun
  obtain ⟨t, ht⟩ := List.length_eq_one_iff.mp hlength
  have hisolated : Isolated [parcel (.int longNumber)] (parcel (.int longNumber)) := by
    refine ⟨hkeys, fun x hx f hf => ?_⟩
    rw [List.mem_singleton.mp hx, hkeys] at hf
    exact absurd hf List.not_mem_nil
  refine ⟨db, t, rules, hdb, ht, hisolated, hrules, hon, ?_⟩
  rintro ⟨ms, hms, -⟩
  obtain ⟨r, hr, u, hu, hn⟩ := hshown
  have hshows := showsUnwritable_of_mem hr hu hn longNumber_unwritable
  rw [report_eq_error_iff.mpr hshows] at hms
  cases hms

end Snapshot

end SchemaAudit
