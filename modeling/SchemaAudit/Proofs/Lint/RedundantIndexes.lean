import Mathlib.Data.List.Perm.Subperm
import SchemaAudit.Dbml.Document
import SchemaAudit.Lint.Rule
import SchemaAudit.Proofs.Schema.ColumnSet

/-!
# What is lost with a redundant index

The rule about redundant indexes compares key columns and included columns, and names one index of
a pair as redundant. Its key leads the key of the other one, but this alone does not make the other
one serve in its place: the rule asks neither that the included columns of the redundant index are
kept, nor that its uniqueness is. The main statements say what is kept in every case, and exactly
when nothing is lost.

- `Table.dropIndex`: the table without the redundant index.
- `Index.Leads`, `redundantPairs_spec`: what holds of every pair that the rule reports.
- `Index.Replaces`, `redundant_lookups`: which lookups are kept, and which foreign keys are reported
  then.
- `Table.SameUniqueSets`, `redundant_uniqueness`: which sets of columns stay unique.
-/

namespace SchemaAudit

/-- The table without an index. Of several equal ones, one is taken away. -/
def Table.dropIndex (t : Table) (i : Index) : Table :=
  { t with indexes := t.indexes.erase i }

/-- The index `i` has key columns, and they lead those of the index `j` with the same directions.
The included columns of one are among those of the other, either way round. -/
structure Index.Leads (i j : Index) : Prop where
  nonempty : i.columnNames ≠ []
  columns : i.orderedColumns <+: j.orderedColumns
  included : i.includedNames ⊆ j.includedNames ∨ j.includedNames ⊆ i.includedNames

/-- Whatever the index `i` looks up, the index `j` looks up as well. -/
def Index.Replaces (j i : Index) : Prop :=
  ∀ names, i.covers names = true → j.covers names = true

/-- The same sets of columns are unique in two tables. -/
def Table.SameUniqueSets (t u : Table) : Prop :=
  ∀ names, t.isUniqueSet names = u.isUniqueSet names

/-! ### The reported pairs -/

namespace Lint

theorem mem_pairs_iff {α : Type} {a b : α} {as : List α} :
    (a, b) ∈ pairs as ↔ [a, b].Sublist as := by
  induction as with
  | nil => simp [pairs]
  | cons c as ih =>
    rw [pairs, List.mem_append, List.mem_map, ih, List.sublist_cons_iff]
    constructor
    · rintro (⟨d, hd, heq⟩ | hrest)
      · obtain ⟨rfl, rfl⟩ := Prod.mk.inj heq
        exact .inr ⟨[d], rfl, List.singleton_sublist.mpr hd⟩
      · exact .inl hrest
    · rintro (hrest | ⟨r, heq, hr⟩)
      · exact .inr hrest
      · obtain ⟨rfl, rfl⟩ := List.cons.inj heq
        exact .inl ⟨b, List.singleton_sublist.mp hr, rfl⟩

/-- The two indexes of a reported pair stand at different places of the table, and the key of the
redundant one leads the key of the other. -/
theorem redundantPairs_spec {t : Table} {r c : Index} (h : (r, c) ∈ redundantPairs t) :
    [r, c].Subperm t.indexes ∧ r.Leads c := by
  obtain ⟨⟨i, j⟩, hpair, hshorter⟩ := List.mem_map.mp h
  obtain ⟨hplaces, hredundant⟩ := List.mem_filter.mp hpair
  have hsubperm : [i, j].Subperm t.indexes := (mem_pairs_iff.mp hplaces).subperm
  obtain ⟨hleads, hincluded⟩ := Index.isRedundantWith_iff.mp hredundant
  have hlength : ∀ {k l : Index}, k.orderedColumns <+: l.orderedColumns →
      k.columns.length ≤ l.columns.length := by
    intro k l hkl
    simpa [Index.orderedColumns] using hkl.length_le
  have hnames : ∀ {k : Index}, k.orderedColumns ≠ [] → k.columnNames ≠ [] := by
    intro k hk
    rw [Index.columnNames_eq]
    exact fun hnil => hk (List.map_eq_nil_iff.mp hnil)
  rw [shorterFirst] at hshorter
  split at hshorter
  · next hlt =>
    obtain ⟨rfl, rfl⟩ := Prod.mk.inj hshorter
    refine ⟨(List.Perm.swap _ _ _).subperm.trans hsubperm, ?_⟩
    rcases hleads with ⟨-, hij⟩ | ⟨hne, hji⟩
    -- the longer key cannot lead the shorter one
    · exact absurd (hlength hij) (Nat.not_le.mpr hlt)
    · exact ⟨hnames hne, hji, hincluded.symm⟩
  · next hge =>
    obtain ⟨rfl, rfl⟩ := Prod.mk.inj hshorter
    refine ⟨hsubperm, ?_⟩
    rcases hleads with ⟨hne, hij⟩ | ⟨hne, hji⟩
    · exact ⟨hnames hne, hij, hincluded⟩
    -- a key that is led by one of the same length is the same key
    · have heq : j.orderedColumns = i.orderedColumns := by
        refine hji.eq_of_length_le ?_
        simpa [Index.orderedColumns] using Nat.not_lt.mp hge
      exact ⟨hnames (heq ▸ hne), heq ▸ List.prefix_rfl, hincluded⟩

/-- The other index of a reported pair is still there without the redundant one. -/
theorem mem_dropIndex_of_redundant {t : Table} {r c : Index} (h : (r, c) ∈ redundantPairs t) :
    c ∈ (t.dropIndex r).indexes := by
  have hsubperm := (redundantPairs_spec h).1.erase r
  rw [List.erase_cons_head] at hsubperm
  exact List.singleton_subperm_iff.mp hsubperm

end Lint

theorem Table.mem_of_mem_dropIndex {t : Table} {r i : Index} (h : i ∈ (t.dropIndex r).indexes) :
    i ∈ t.indexes :=
  List.mem_of_mem_erase h

theorem Table.mem_dropIndex_or_eq {t : Table} {r i : Index} (h : i ∈ t.indexes) :
    i ∈ (t.dropIndex r).indexes ∨ i = r := by
  by_cases heq : i = r
  · exact .inr heq
  · exact .inl ((List.mem_erase_of_ne heq).mpr h)

/-! ### Lookups -/

namespace Index

variable {r c : Index}

theorem Leads.columnNames (h : r.Leads c) : r.columnNames <+: c.columnNames := by
  rw [columnNames_eq, columnNames_eq]
  exact h.columns.map _

/-- What is looked up by the key alone is kept. -/
theorem Leads.covers_of_prefix (h : r.Leads c) {names : List String} (hne : names ≠ [])
    (hpre : names <+: r.columnNames) : c.covers names = true := by
  have hnames : names <+: c.columnNames := hpre.trans h.columnNames
  exact covers_iff.mpr ⟨hne, fun hnil => hne (List.prefix_nil.mp (hnil ▸ hnames)), .inl hnames⟩

/-- A lookup that is lost goes on from the whole key of the redundant index with columns that the
index includes. -/
theorem Leads.eq_append_of_lost (h : r.Leads c) {names : List String}
    (hr : r.covers names = true) (hc : c.covers names = false) :
    ∃ rest, rest ≠ [] ∧ names = r.columnNames ++ rest ∧ rest ⊆ r.includedNames := by
  obtain ⟨hne, -, hpre | ⟨rest, rfl, hrest⟩⟩ := covers_iff.mp hr
  · rw [h.covers_of_prefix hne hpre] at hc
    cases hc
  · refine ⟨rest, ?_, rfl, hrest⟩
    rintro rfl
    rw [h.covers_of_prefix hne (by simp)] at hc
    cases hc

/-- The included columns of the redundant index are included in the other one, and the key of that
one goes on with nothing else. -/
def KeepsIncluded (c r : Index) : Prop :=
  ∀ x ∈ r.includedNames, x ∈ c.includedNames ∧
    ∀ y ∈ c.columnNames.drop r.columnNames.length, y = x

instance (c r : Index) : Decidable (c.KeepsIncluded r) := by
  unfold KeepsIncluded
  infer_instance

/-- The included columns are kept: one of them repeated beyond the other key is looked up only if
that key repeats the same column and includes it. -/
theorem Leads.keepsIncluded_of_replaces (h : r.Leads c) (hreplaces : c.Replaces r) :
    c.KeepsIncluded r := by
  intro x hx
  obtain ⟨more, hmore⟩ := h.columnNames
  rw [← hmore, List.drop_left]
  have hr : r.covers (r.columnNames ++ List.replicate (more.length + 1) x) = true := by
    refine covers_iff.mpr ⟨fun hnil => h.nonempty (List.append_eq_nil_iff.mp hnil).1,
      h.nonempty, .inr ⟨_, rfl, ?_⟩⟩
    intro y hy
    rw [List.eq_of_mem_replicate hy]
    exact hx
  obtain ⟨-, -, hpre | ⟨rest, hsplit, hrest⟩⟩ := covers_iff.mp (hreplaces _ hr)
  · have hlength := hpre.length_le
    rw [← hmore, List.length_append, List.length_append, List.length_replicate] at hlength
    omega
  · rw [← hmore, List.append_assoc] at hsplit
    obtain ⟨hlength, hmoreEq, hrestEq⟩ :=
      List.append_eq_replicate_iff.mp (List.append_cancel_left hsplit).symm
    refine ⟨hrest ?_, fun y hy => ?_⟩
    · have hone : rest.length = 1 := by omega
      rw [hrestEq, hone]
      exact List.mem_singleton_self x
    · rw [hmoreEq] at hy
      exact List.eq_of_mem_replicate hy

/-- Where the included columns are kept, every lookup is. -/
theorem Leads.replaces_of_keepsIncluded (h : r.Leads c) (hkeeps : c.KeepsIncluded r) :
    c.Replaces r := by
  intro names hr
  obtain ⟨hne, -, hpre | ⟨rest, rfl, hrest⟩⟩ := covers_iff.mp hr
  · exact h.covers_of_prefix hne hpre
  obtain ⟨more, hmore⟩ := h.columnNames
  have hkeys : c.columnNames ≠ [] := by
    rw [← hmore]
    exact fun hnil => h.nonempty (List.append_eq_nil_iff.mp hnil).1
  cases rest with
  | nil => exact h.covers_of_prefix hne (by simp)
  | cons x xs =>
    obtain ⟨hx, hdrop⟩ := hkeeps x (hrest List.mem_cons_self)
    rw [← hmore, List.drop_left] at hdrop
    refine covers_iff.mpr ⟨hne, hkeys, ?_⟩
    rw [← hmore]
    cases more with
    | nil =>
      refine .inr ⟨x :: xs, by rw [List.append_nil], fun y hy => ?_⟩
      exact (hkeeps y (hrest hy)).1
    | cons z zs =>
      -- the key goes on, so all that is included is the one column with which it goes on
      have hsame : ∀ y ∈ x :: xs, y = x := by
        intro y hy
        have hzy := (hkeeps y (hrest hy)).2 z (by rw [← hmore, List.drop_left]; simp)
        rw [← hzy, hdrop z List.mem_cons_self]
      rw [List.eq_replicate_of_mem hsame, List.eq_replicate_of_mem hdrop]
      rcases Nat.le_total (x :: xs).length (z :: zs).length with hle | hle
      · obtain ⟨n, hn⟩ := Nat.exists_eq_add_of_le hle
        rw [hn, List.replicate_add, ← List.append_assoc]
        exact .inl (List.prefix_append _ _)
      · obtain ⟨n, hn⟩ := Nat.exists_eq_add_of_le hle
        refine .inr ⟨List.replicate n x, ?_, fun y hy => ?_⟩
        · rw [hn, List.replicate_add, List.append_assoc]
        · rw [List.eq_of_mem_replicate hy]
          exact hx

end Index

namespace Lint

/-- A foreign key lacks an index if it has columns and no index of the table covers them. -/
theorem lacksIndex_iff {t : Table} {k : Relationship} :
    lacksIndex t k = true ↔
      k.childKey.columns ≠ [] ∧ ∀ i ∈ t.indexes, i.covers k.childKey.columnNames = false := by
  rw [lacksIndex, Bool.and_eq_true, Bool.not_eq_true', Bool.not_eq_true', List.any_eq_false]
  simp

/-- A foreign key that lacks an index lacks it without the redundant index as well. -/
theorem lacksIndex_dropIndex {t : Table} {r : Index} {k : Relationship}
    (h : lacksIndex t k = true) : lacksIndex (t.dropIndex r) k = true := by
  obtain ⟨hne, hall⟩ := lacksIndex_iff.mp h
  exact lacksIndex_iff.mpr ⟨hne, fun i hi => hall i (Table.mem_of_mem_dropIndex hi)⟩

/-- A foreign key that lacks an index only without the redundant one was covered by this, and is
not covered by the other index of the pair. -/
theorem lost_of_lacksIndex_dropIndex {t : Table} {r c : Index} (h : (r, c) ∈ redundantPairs t)
    {k : Relationship} (hdrop : lacksIndex (t.dropIndex r) k = true)
    (hbefore : lacksIndex t k = false) :
    r.covers k.childKey.columnNames = true ∧ c.covers k.childKey.columnNames = false := by
  obtain ⟨hne, hall⟩ := lacksIndex_iff.mp hdrop
  refine ⟨?_, hall c (mem_dropIndex_of_redundant h)⟩
  by_contra hr
  have hlacks : lacksIndex t k = true := by
    refine lacksIndex_iff.mpr ⟨hne, fun i hi => ?_⟩
    rcases Table.mem_dropIndex_or_eq (r := r) hi with hi | rfl
    · exact hall i hi
    · exact Bool.not_eq_true _ ▸ hr
  rw [hlacks] at hbefore
  cases hbefore

end Lint

/-! ### Stays of guests, for trying the laws -/

/-- A column of integers. -/
def numberColumn (name : String) : Column where
  name := name
  type := ⟨"int", .integer⟩

/-- An index over ascending columns, with included ones. -/
def indexOver (name : String) (columns included : List String) (unique : Bool) : Index where
  name := .text name
  columns := columns.map fun c => ⟨c, .ascending, some (numberColumn c)⟩
  included := included.map numberColumn
  unique := .bool unique

/-- Looks up stays by guest, and those of one guest by room. -/
def byGuest : Index := indexOver "by_guest" ["guest"] ["room"] false

/-- Looks up stays by guest and day. -/
def byGuestDay : Index := indexOver "by_guest_day" ["guest", "day"] [] false

/-- Looks up stays by guest, day and hour. -/
def byGuestDayHour : Index := indexOver "by_guest_day_hour" ["guest", "day", "hour"] [] false

/-- A guest stays in a room that was booked. -/
def bookedRoom : Relationship where
  childTable := .bare "stays"
  childKey := ⟨.null, .foreign, ["guest", "room"].map numberColumn, .bool true⟩
  parentTable := .bare "bookings"
  parentKey := ⟨.null, .primary, ["guest", "room"].map numberColumn, .bool true⟩

/-- The stays of guests in rooms. -/
def stays : Table where
  name := .bare "stays"
  columns := ["guest", "room", "day", "hour"].map numberColumn
  parentKeys := [bookedRoom]
  indexes := [byGuest, byGuestDay, byGuestDayHour]

/-- **Which lookups a redundant index leaves behind.** Let the rule report the index `r` as
redundant because of `c`. What `r` looks up by its key columns alone, `c` looks up as well. It looks
up all that `r` does exactly if it keeps the included columns of `r`. Without `r`, a foreign key is
newly reported to lack an index only if its columns go on from the key of `r` with included ones,
and none is where the included columns are kept. -/
theorem redundant_lookups {t : Table} {r c : Index} (h : (r, c) ∈ Lint.redundantPairs t) :
    (∀ names, names ≠ [] → names <+: r.columnNames → c.covers names = true) ∧
      (c.Replaces r ↔ c.KeepsIncluded r) ∧
      (∀ k, Lint.lacksIndex (t.dropIndex r) k = true → Lint.lacksIndex t k = false →
        ∃ rest, rest ≠ [] ∧ k.childKey.columnNames = r.columnNames ++ rest ∧
          rest ⊆ r.includedNames) ∧
      (c.KeepsIncluded r → ∀ level,
        Rule.messages ⟨.foreignKeyIndex, level⟩ (.tables [t.dropIndex r]) =
          Rule.messages ⟨.foreignKeyIndex, level⟩ (.tables [t])) := by
  have hleads := (Lint.redundantPairs_spec h).2
  refine ⟨fun names hne hpre => hleads.covers_of_prefix hne hpre,
    ⟨hleads.keepsIncluded_of_replaces, hleads.replaces_of_keepsIncluded⟩, ?_, ?_⟩
  · intro k hdrop hbefore
    obtain ⟨hr, hc⟩ := Lint.lost_of_lacksIndex_dropIndex h hdrop hbefore
    exact hleads.eq_append_of_lost hr hc
  · intro hkeeps level
    have hlacks : ∀ k, Lint.lacksIndex (t.dropIndex r) k = Lint.lacksIndex t k := by
      intro k
      cases hbefore : Lint.lacksIndex t k with
      | true => exact Lint.lacksIndex_dropIndex hbefore
      | false =>
        by_contra hdrop
        obtain ⟨hr, hc⟩ :=
          Lint.lost_of_lacksIndex_dropIndex h (Bool.not_eq_false _ ▸ hdrop) hbefore
        rw [hleads.replaces_of_keepsIncluded hkeeps _ hr] at hc
        cases hc
    have htexts : Lint.unindexedForeignKeys (t.dropIndex r) = Lint.unindexedForeignKeys t := by
      rw [Lint.unindexedForeignKeys, Lint.unindexedForeignKeys, funext hlacks]
      rfl
    show List.map _ (List.flatten [(Lint.unindexedForeignKeys (t.dropIndex r)).map _]) = _
    rw [htexts]
    rfl

/-- The lookup by guest and room is lost with the index by guest, which is reported as redundant,
and the foreign key with these columns is newly reported. -/
theorem stays_lookup_lost :
    (byGuest, byGuestDay) ∈ Lint.redundantPairs stays ∧
      byGuest.covers ["guest", "room"] = true ∧ byGuestDay.covers ["guest", "room"] = false ∧
      Rule.messages ⟨.foreignKeyIndex, .warning⟩ (.tables [stays]) = [] ∧
      (Rule.messages ⟨.foreignKeyIndex, .warning⟩ (.tables [stays.dropIndex byGuest])).map
        (·.target) = [some (.bare "stays")] := by
  decide +kernel

/-- The room is not kept by the longer index, and the lookups by guest and day are. -/
theorem stays_lookups :
    (byGuest, byGuestDay) ∈ Lint.redundantPairs stays ∧ ¬ byGuestDay.Replaces byGuest ∧
      (byGuestDay, byGuestDayHour) ∈ Lint.redundantPairs stays ∧
      byGuestDayHour.Replaces byGuestDay ∧
      Rule.messages ⟨.foreignKeyIndex, .warning⟩ (.tables [stays.dropIndex byGuestDay]) =
        Rule.messages ⟨.foreignKeyIndex, .warning⟩ (.tables [stays]) := by
  have hguest : (byGuest, byGuestDay) ∈ Lint.redundantPairs stays := by decide +kernel
  have hday : (byGuestDay, byGuestDayHour) ∈ Lint.redundantPairs stays := by decide +kernel
  have hlost : ¬ byGuestDay.KeepsIncluded byGuest := by decide +kernel
  have hkept : byGuestDayHour.KeepsIncluded byGuestDay := by decide +kernel
  obtain ⟨-, hiff, -, -⟩ := redundant_lookups hguest
  obtain ⟨-, hiff', -, hmessages⟩ := redundant_lookups hday
  exact ⟨hguest, mt hiff.mp hlost, hday, hiff'.mpr hkept, hmessages hkept .warning⟩

/-! ### Unique sets of columns -/

namespace Table

variable {t : Table} {r : Index}

theorem mem_candidates_of_dropIndex {names : List String}
    (h : names ∈ (t.dropIndex r).candidates) : names ∈ t.candidates := by
  rw [mem_candidates_iff] at h ⊢
  rcases h with hkey | ⟨i, hi, hunique⟩
  · exact .inl hkey
  · exact .inr ⟨i, mem_of_mem_dropIndex hi, hunique⟩

/-- Only the columns of the index itself can be lost. -/
theorem mem_candidates_dropIndex_or {names : List String} (h : names ∈ t.candidates) :
    names ∈ (t.dropIndex r).candidates ∨
      r.unique.isPresent = true ∧ r.columnNames = names := by
  rw [mem_candidates_iff] at h ⊢
  rcases h with hkey | ⟨i, hi, hunique⟩
  · exact .inl (.inl hkey)
  · rcases mem_dropIndex_or_eq (r := r) hi with hi | rfl
    · exact .inl (.inr ⟨i, hi, hunique⟩)
    · exact .inr hunique

theorem isUniqueSet_of_dropIndex {names : List String}
    (h : (t.dropIndex r).isUniqueSet names = true) : t.isUniqueSet names = true := by
  obtain ⟨hne, candidate, hmem, hsame⟩ := isUniqueSet_iff.mp h
  exact isUniqueSet_iff.mpr ⟨hne, candidate, mem_candidates_of_dropIndex hmem, hsame⟩

/-- Uniqueness is a matter of sets: where one list of columns is unique, so is every other one of
the same set. -/
theorem isUniqueSet_of_same {names others : List String} (hne : others ≠ [])
    (hsame : ∀ a, a ∈ names ↔ a ∈ others) (h : t.isUniqueSet names = true) :
    t.isUniqueSet others = true := by
  obtain ⟨-, candidate, hmem, hcandidate⟩ := isUniqueSet_iff.mp h
  exact isUniqueSet_iff.mpr ⟨hne, candidate, hmem, fun a => (hcandidate a).trans (hsame a)⟩

/-- An answer that changes without an index is about the columns of the index, and the index is
unique. -/
theorem isUniqueSet_dropIndex_or (names : List String) :
    (t.dropIndex r).isUniqueSet names = t.isUniqueSet names ∨
      r.unique.isPresent = true ∧ sameSet r.columnNames names = true := by
  cases hbefore : t.isUniqueSet names with
  | false =>
    refine .inl (Bool.eq_false_iff.mpr fun hafter => ?_)
    rw [isUniqueSet_of_dropIndex hafter] at hbefore
    cases hbefore
  | true =>
    obtain ⟨hne, candidate, hmem, hsame⟩ := isUniqueSet_iff.mp hbefore
    rcases mem_candidates_dropIndex_or (r := r) hmem with hkept | ⟨hunique, rfl⟩
    · exact .inl (isUniqueSet_iff.mpr ⟨hne, candidate, hkept, hsame⟩)
    · exact .inr ⟨hunique, sameSet_iff.mpr hsame⟩

/-- Nothing is lost with an index that has columns exactly if it is not unique, or its columns are
a unique set without it. -/
theorem sameUniqueSets_dropIndex_iff (hr : r ∈ t.indexes) (hne : r.columnNames ≠ []) :
    (t.dropIndex r).SameUniqueSets t ↔
      (r.unique.isPresent = true → (t.dropIndex r).isUniqueSet r.columnNames = true) := by
  constructor
  · intro hsame hunique
    rw [hsame]
    exact isUniqueSet_iff.mpr
      ⟨hne, r.columnNames, mem_candidates_iff.mpr (.inr ⟨r, hr, hunique, rfl⟩), fun _ => Iff.rfl⟩
  · intro hkept names
    rcases isUniqueSet_dropIndex_or (t := t) (r := r) names with hsame | ⟨hunique, hcolumns⟩
    · exact hsame
    · rw [sameSet_iff] at hcolumns
      have hnames : names ≠ [] := by
        rintro rfl
        exact hne (List.eq_nil_iff_forall_not_mem.mpr
          fun a ha => List.not_mem_nil ((hcolumns a).mp ha))
      have hafter := isUniqueSet_of_same hnames hcolumns (hkept hunique)
      rw [hafter, isUniqueSet_of_dropIndex hafter]

/-- The same sets of columns are unique exactly if every relationship has the same cardinality. -/
theorem sameUniqueSets_iff_cardinality {t u : Table} :
    t.SameUniqueSets u ↔
      ∀ k : Relationship, k.cardinality (some t) = k.cardinality (some u) := by
  constructor
  · intro h k
    rw [Relationship.cardinality, Relationship.cardinality, h]
  · intro h names
    -- a foreign key with these columns asks for this answer
    let columns := names.map fun name => ({ name, type := ⟨"", .unknown⟩ } : Column)
    let childKey : Key := ⟨.null, .foreign, columns, .bool true⟩
    have hcolumns : childKey.columnNames = names := by
      rw [Key.columnNames, List.map_map]
      exact List.map_id names
    have hk := h ⟨t.name, childKey, t.name, childKey, .noAction, .noAction⟩
    simp only [Relationship.cardinality, hcolumns] at hk
    cases ht : t.isUniqueSet names <;> cases hu : u.isUniqueSet names <;> simp [ht, hu] at hk ⊢

end Table

/-- The two indexes of a reported pair with equally many columns have the same columns. -/
theorem Index.Leads.columnNames_eq_of_length {r c : Index} (h : r.Leads c)
    (hlength : c.columns.length = r.columns.length) : c.columnNames = r.columnNames := by
  refine (h.columnNames.eq_of_length ?_).symm
  simpa [Index.columnNames] using hlength.symm

/-- **What uniqueness is lost with a redundant index.** Let the rule report the index `r` as
redundant because of `c`. Without `r`, at most the set of its own columns is no longer unique, and
only if `r` is unique. The same sets are unique, and every relationship to the table keeps its
cardinality, exactly if `r` is not unique or its columns are a unique set without it; so they are if
`c` is unique and has equally many columns. -/
theorem redundant_uniqueness {t : Table} {r c : Index} (h : (r, c) ∈ Lint.redundantPairs t) :
    (∀ names, (t.dropIndex r).isUniqueSet names = t.isUniqueSet names ∨
        r.unique.isPresent = true ∧ sameSet r.columnNames names = true) ∧
      ((t.dropIndex r).SameUniqueSets t ↔
        (r.unique.isPresent = true → (t.dropIndex r).isUniqueSet r.columnNames = true)) ∧
      ((t.dropIndex r).SameUniqueSets t ↔
        ∀ k : Relationship, k.cardinality (some (t.dropIndex r)) = k.cardinality (some t)) ∧
      (c.unique.isPresent = true → c.columns.length = r.columns.length →
        (t.dropIndex r).SameUniqueSets t) := by
  obtain ⟨hplaces, hleads⟩ := Lint.redundantPairs_spec h
  have hr : r ∈ t.indexes := hplaces.subset List.mem_cons_self
  have hiff := Table.sameUniqueSets_dropIndex_iff hr hleads.nonempty
  refine ⟨Table.isUniqueSet_dropIndex_or, hiff, Table.sameUniqueSets_iff_cardinality, ?_⟩
  intro hunique hlength
  refine hiff.mpr fun _ => Table.isUniqueSet_iff.mpr ⟨hleads.nonempty, r.columnNames, ?_, ?_⟩
  · exact Table.mem_candidates_iff.mpr (.inr ⟨c, Lint.mem_dropIndex_of_redundant h, hunique,
      hleads.columnNames_eq_of_length hlength⟩)
  · exact fun _ => Iff.rfl

/-- No two rooms have the same number. -/
def byNumber : Index := indexOver "by_number" ["number"] [] true

/-- Looks up rooms by number and floor. -/
def byNumberFloor : Index := indexOver "by_number_floor" ["number", "floor"] [] false

/-- No two rooms have the same number, again. -/
def byNumberAgain : Index := indexOver "by_number_again" ["number"] ["floor"] true

/-- The rooms of a house, with some indexes. -/
def rooms (indexes : List Index) : Table where
  name := .bare "rooms"
  columns := ["number", "floor"].map numberColumn
  indexes := indexes

/-- A lamp hangs in a room. -/
def lampRoom : Relationship where
  childTable := .bare "lamps"
  childKey := ⟨.null, .foreign, [numberColumn "number"], .bool true⟩
  parentTable := .bare "rooms"
  parentKey := ⟨.null, .unique, [numberColumn "number"], .bool true⟩

/-- A unique index is reported as redundant because of one that is not unique, and without it a
relationship changes its cardinality. -/
theorem rooms_uniqueness_lost :
    let t := rooms [byNumber, byNumberFloor]
    (byNumber, byNumberFloor) ∈ Lint.redundantPairs t ∧
      t.isUniqueSet ["number"] = true ∧ (t.dropIndex byNumber).isUniqueSet ["number"] = false ∧
      lampRoom.cardinality (some t) = .oneToOne ∧
      lampRoom.cardinality (some (t.dropIndex byNumber)) = .oneToMany := by
  decide +kernel

/-- Of two unique indexes over the same columns, one can go. -/
theorem rooms_uniqueness :
    let t := rooms [byNumber, byNumberFloor]
    let u := rooms [byNumber, byNumberAgain]
    (byNumber, byNumberFloor) ∈ Lint.redundantPairs t ∧ ¬ (t.dropIndex byNumber).SameUniqueSets t ∧
      (byNumber, byNumberAgain) ∈ Lint.redundantPairs u ∧
      (u.dropIndex byNumber).SameUniqueSets u := by
  intro t u
  have hfloor : (byNumber, byNumberFloor) ∈ Lint.redundantPairs t := by decide +kernel
  have hagain : (byNumber, byNumberAgain) ∈ Lint.redundantPairs u := by decide +kernel
  obtain ⟨-, hiff, -, -⟩ := redundant_uniqueness hfloor
  obtain ⟨-, -, -, hkept⟩ := redundant_uniqueness hagain
  refine ⟨hfloor, fun hsame => ?_, hagain, hkept rfl rfl⟩
  have hunique : (t.dropIndex byNumber).isUniqueSet byNumber.columnNames = true := hiff.mp hsame rfl
  have hlost : (t.dropIndex byNumber).isUniqueSet byNumber.columnNames = false := by decide +kernel
  rw [hlost] at hunique
  cases hunique

end SchemaAudit
