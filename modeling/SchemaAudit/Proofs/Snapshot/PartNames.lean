import SchemaAudit.Proofs.Lint.RedundantIndexes
import SchemaAudit.Proofs.Lint.Shown
import SchemaAudit.Proofs.Number.Integer
import SchemaAudit.Proofs.Snapshot.Failures
import SchemaAudit.Proofs.Snapshot.Relationships

/-!
# Names of the parts of tables

Keys, indexes, checks and triggers keep the names that the snapshot gives them, and only such names
are shown when the tables are linted. A name that cannot be written is therefore the fault of an
integer that stands in the snapshot: where all integers have a text, every run of rules gives all
its messages.

- `Table.partNames`: the names of all parts of a table.
- `Inspection.shownNames_subset`: what inspections show is among them.
- `readDatabase_partNames`: the names come from the snapshot.
- `showsUnwritable_of_integersWritable`: snapshots over which no run of rules fails.
-/

namespace SchemaAudit

/-- The names of the keys, indexes, checks and triggers of a table. -/
def Table.partNames (t : Table) : List Doc :=
  (t.primaryKey.toList ++ t.uniqueKeys).map (·.name) ++ t.parentKeys.map (·.childKey.name) ++
    t.indexes.map (·.name) ++ t.checks.map (·.name) ++ t.triggers.map (·.name)

/-! ### Names that are shown -/

theorem Table.mem_partNames_iff {t : Table} {n : Doc} :
    n ∈ t.partNames ↔
      (∃ k ∈ t.primaryKey.toList ++ t.uniqueKeys, k.name = n) ∨
        (∃ r ∈ t.parentKeys, r.childKey.name = n) ∨ (∃ i ∈ t.indexes, i.name = n) ∨
        (∃ c ∈ t.checks, c.name = n) ∨ ∃ g ∈ t.triggers, g.name = n := by
  simp only [partNames, List.mem_append, List.mem_map, or_assoc]

theorem Table.name_mem_partNames_of_index {t : Table} {i : Index} (h : i ∈ t.indexes) :
    i.name ∈ t.partNames :=
  mem_partNames_iff.mpr (.inr (.inr (.inl ⟨i, h, rfl⟩)))

theorem Lint.disabledNames_subset (t : Table) : disabledNames t ⊆ t.partNames := by
  intro n hn
  rw [disabledNames] at hn
  simp only [List.mem_append, List.mem_map, List.mem_filter] at hn
  refine Table.mem_partNames_iff.mpr ?_
  rcases hn with ((⟨k, ⟨hk, -⟩, hn⟩ | ⟨i, ⟨hi, -⟩, hn⟩) | ⟨c, ⟨hc, -⟩, hn⟩) | ⟨g, ⟨hg, -⟩, hn⟩
  · rcases hk with hk | ⟨r, hr, rfl⟩
    · exact .inl ⟨k, List.mem_append.mpr hk, hn⟩
    · exact .inr (.inl ⟨r, hr, hn⟩)
  · exact .inr (.inr (.inl ⟨i, hi, hn⟩))
  · exact .inr (.inr (.inr (.inl ⟨c, hc, hn⟩)))
  · exact .inr (.inr (.inr (.inr ⟨g, hg, hn⟩)))

theorem Lint.foreignKeyNames_subset (p : Relationship → Bool) (t : Table) :
    foreignKeyNames p t ⊆ t.partNames := by
  intro n hn
  obtain ⟨r, hr, hname⟩ := List.mem_map.mp hn
  exact Table.mem_partNames_iff.mpr (.inr (.inl ⟨r, (List.mem_filter.mp hr).1, hname⟩))

/-- An inspection shows names of parts of the table only. -/
theorem Inspection.shownNames_subset (i : Inspection) (t : Table) :
    i.shownNames t ⊆ t.partNames := by
  cases i with
  | disabledObjects => exact Lint.disabledNames_subset t
  | foreignKeyColumnTypeMismatch => exact Lint.foreignKeyNames_subset _ t
  | foreignKeyIndex => exact Lint.foreignKeyNames_subset _ t
  | foreignKeyIsPrimaryKey => exact Lint.foreignKeyNames_subset _ t
  | redundantIndexes =>
    intro n hn
    obtain ⟨⟨r, c⟩, hpair, hn⟩ := List.mem_flatMap.mp hn
    have hindexes : ∀ j ∈ [r, c], j ∈ t.indexes := (Lint.redundantPairs_spec hpair).1.subset
    obtain ⟨j, hj, rfl⟩ := List.mem_map.mp (show n ∈ [r, c].map (·.name) from hn)
    exact Table.name_mem_partNames_of_index (hindexes j hj)
  | uniqueIndexWithNullableColumns =>
    intro n hn
    obtain ⟨j, hj, rfl⟩ := List.mem_map.mp hn
    exact Table.name_mem_partNames_of_index (List.mem_filter.mp hj).1
  | _ => exact List.nil_subset _

/-- Names that can be written are shown without failing. -/
theorem showsUnwritable_of_partNames {ts : List Table}
    (h : ∀ t ∈ ts, ∀ n ∈ t.partNames, n.isWritable = true) (rules : List Rule) :
    showsUnwritable rules ts = false :=
  showsUnwritable_eq_false_iff.mpr fun r _ t ht n hn =>
    h t ht n (r.inspection.shownNames_subset t hn)

/-! ### Names in definitions -/

namespace Snapshot

/-- A key has the name of its definition, in whichever form that is. -/
theorem readKey_name {kind : KeyKind} {columns : List Column} {table : Identifier} {e : Doc}
    {k : Key} (h : readKey kind columns table e = .ok k) : k.name.DrawnFrom e := by
  simp only [readKey, bind_eq_ok_iff, Except.ok.injEq] at h
  obtain ⟨-, -, _, -, rfl⟩ := h
  exact (Doc.drawnFrom_get _ _).trans (drawnFrom_keyMapping e)

theorem readPrimaryKey_name {columns : List Column} {table : Identifier} {e : Doc} {k : Key}
    (h : readPrimaryKey columns table e = .ok (some k)) : k.name.DrawnFrom e := by
  unfold readPrimaryKey at h
  split at h
  · obtain ⟨k', hk', h⟩ := bind_eq_ok_iff.mp h
    obtain rfl := Option.some.inj (Except.ok.inj h)
    exact readKey_name hk'
  · cases h

theorem readCheck_name {e : Doc} {c : Check} (h : readCheck e = .ok c) : c.name = e.get "name" := by
  simp only [readCheck, bind_eq_ok_iff, Except.ok.injEq] at h
  obtain ⟨-, -, rfl⟩ := h
  rfl

theorem readTrigger_name {e : Doc} {g : Trigger} (h : readTrigger e = .ok g) :
    g.name = e.get "name" := by
  simp only [readTrigger, bind_eq_ok_iff, Except.ok.injEq] at h
  obtain ⟨-, -, _, -, _, -, _, -, rfl⟩ := h
  rfl

/-- The parts of a list are drawn from it, and so is what is drawn from one of them. -/
theorem drawnFrom_of_readList {α : Type} {read : Doc → Except Failure α} {name : α → Doc} {e : Doc}
    {field : String} (hname : ∀ x a, read x = .ok a → (name a).DrawnFrom x) {as : List α}
    (h : readList read (e.get field) = .ok as) : ∀ a ∈ as, (name a).DrawnFrom e := by
  intro a ha
  obtain ⟨ds, hds, hread⟩ := readList_eq_ok_iff.mp h
  obtain ⟨x, hx, hxa⟩ := exists_partner hread.flip a ha
  have hlist := (hname x a hxa).trans (Doc.drawnFrom_of_mem_parts hds hx)
  exact hlist.trans (Doc.drawnFrom_get e field)

/-- The parts of a table that is read, and the foreign keys that it declares, have names that are
drawn from its definition. -/
theorem readTable_partNames {e : Doc} {d : Draft} (h : readTable e = .ok d) :
    (∀ n ∈ d.table.partNames, n.DrawnFrom e) ∧ ∀ f ∈ d.foreignKeys, f.name.DrawnFrom e := by
  simp only [readTable, bind_eq_ok_iff, Except.ok.injEq] at h
  obtain ⟨-, -, name, -, cs, -, pk, hpk, us, hus, is, his, ks, hks, ts, hts, fs, hfs, rfl⟩ := h
  constructor
  · intro n hn
    rcases Table.mem_partNames_iff.mp hn with
      ⟨k, hk, rfl⟩ | ⟨r, hr, -⟩ | ⟨i, hi, rfl⟩ | ⟨c, hc, rfl⟩ | ⟨g, hg, rfl⟩
    · rcases List.mem_append.mp hk with hk | hk
      · obtain rfl : pk = some k := Option.mem_toList.mp hk
        exact (readPrimaryKey_name hpk).trans (Doc.drawnFrom_get e _)
      · exact drawnFrom_of_readList (fun _ _ => readKey_name) hus k hk
    · exact absurd hr List.not_mem_nil
    · refine drawnFrom_of_readList (fun x i hi => ?_) his i hi
      exact (readIndex_reads hi).1 ▸ Doc.drawnFrom_get x _
    · refine drawnFrom_of_readList (fun x c hc => ?_) hks c hc
      exact readCheck_name hc ▸ Doc.drawnFrom_get x _
    · refine drawnFrom_of_readList (fun x g hg => ?_) hts g hg
      exact readTrigger_name hg ▸ Doc.drawnFrom_get x _
  · refine drawnFrom_of_readList (fun x f hf => ?_) hfs
    exact (readForeignKey_spec hf).1 ▸ Doc.drawnFrom_get x _

/-- Linking adds the names of foreign keys only. -/
theorem linked_partNames {ds : List Draft} {d : Draft} {e : Doc} (he : readTable e = .ok d)
    (haccepted : Accepted (declaredRelationships (ds.map (·.table)) d)) :
    ∀ n ∈ (linked ds d).partNames, n.DrawnFrom e := by
  obtain ⟨hparts, hforeign⟩ := readTable_partNames he
  have hkeys : ∀ r ∈ (linked ds d).parentKeys, r.childKey.name.DrawnFrom e := by
    intro r hr
    obtain ⟨f, hf, hresolve⟩ := exists_partner (relationships_spec haccepted).flip r hr
    obtain ⟨p, -, hresolve⟩ := resolveForeignKey_eq_ok_iff.mp hresolve
    obtain ⟨k, -, -, rfl⟩ := resolve_eq_ok_iff.mp hresolve
    exact hforeign f hf
  intro n hn
  -- but for the relationships, the table has the parts of its draft
  rcases Table.mem_partNames_iff.mp hn with h | ⟨r, hr, rfl⟩ | h | h | h
  · exact hparts n (Table.mem_partNames_iff.mpr (.inl h))
  · exact hkeys r hr
  · exact hparts n (Table.mem_partNames_iff.mpr (.inr (.inr (.inl h))))
  · exact hparts n (Table.mem_partNames_iff.mpr (.inr (.inr (.inr (.inl h)))))
  · exact hparts n (Table.mem_partNames_iff.mpr (.inr (.inr (.inr (.inr h)))))

/-- The names of the parts of all tables are drawn from the snapshot. -/
theorem readDatabase_partNames {d : Doc} {db : Database} (h : readDatabase d = .ok db) :
    ∀ t ∈ db.tables, ∀ n ∈ t.partNames, n.DrawnFrom d := by
  obtain ⟨es, ds, hes, hdrafted, htables⟩ := drafted_of_readDatabase h
  rw [htables, List.forall_mem_map]
  intro x hx n hn
  obtain ⟨e, he, hread⟩ := exists_partner hdrafted.read.flip x hx
  have hdrawn := linked_partNames hread (hdrafted.accepted x hx) n hn
  exact (hdrawn.trans (Doc.drawnFrom_of_mem_parts hes he)).trans (Doc.drawnFrom_get d _)

/-- **Snapshots without long integers.** If all integers in an accepted snapshot have a text, then
no rule shows a name that cannot be written. -/
theorem showsUnwritable_of_integersWritable {d : Doc} {db : Database}
    (h : readDatabase d = .ok db) (hd : d.IntegersWritable) (rules : List Rule) :
    showsUnwritable rules db.tables = false := by
  refine showsUnwritable_of_partNames (fun t ht n hn => ?_) rules
  refine n.isWritable_iff.mpr fun i hi => ?_
  -- an integer without a text in the name would stand in the snapshot, too
  refine Bool.of_not_eq_false fun hextreme => ?_
  have hoccurs := readDatabase_partNames h t ht n hn (.int i) hextreme hi
  rw [hd i hoccurs] at hextreme
  cases hextreme

/-! ### A long number -/

/-- An integer with more digits than can be written. -/
def longNumber : Int :=
  Int.ofNat (Nat.pow 16 3600)

theorem longNumber_unwritable : (Doc.int longNumber).isWritable = false := by
  refine Bool.eq_false_iff.mpr fun hwritable => ?_
  rw [Doc.isWritable, Number.isWritable, Number.fitsDigits_iff] at hwritable
  have hle : Nat.pow 10 Number.digitLimit ≤ longNumber.natAbs := by
    decide +kernel
  exact absurd hwritable (Nat.not_lt.mpr hle)

/-- A column of integers that are never missing. -/
def requiredColumn (name : String) : Doc :=
  .map [(.text "name", .text name), (.text "type", .text "int"), (.text "nullable", .bool false)]

/-- A table of parcels with a disabled index of the given name. -/
def parcel (index : Doc) : Doc :=
  .map [(.text "table", .text "parcel"),
    (.text "columns", .list [requiredColumn "id", integerColumn "weight"]),
    (.text "primary_key", .text "id"),
    (.text "indexes", .list [.map [(.text "name", index), (.text "columns", .text "weight"),
      (.text "enabled", .bool false)]])]

end Snapshot

end SchemaAudit
