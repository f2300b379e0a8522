import SchemaAudit.Schema.ColumnSet

/-!
# Laws of comparing columns

Lists of columns are compared by tests that answer with a truth value. Here stands what each of
these tests means, so that later proofs speak of lists and their elements only.

- `leads_iff`, `includedIn_iff`, `sameSet_iff`, `nested_iff`: one list against another.
- `Index.covers_iff`: an index looks up the columns that lead its key, and those that go on from its
  whole key with included columns.
- `Table.isUniqueSet_iff`: a set of columns is unique if it is the set of a candidate.
-/

namespace SchemaAudit

section Lists

variable {α : Type} [BEq α] [LawfulBEq α] {left right : List α}

theorem leads_iff : leads left right = true ↔ left ≠ [] ∧ left <+: right := by
  simp [leads]

theorem includedIn_iff : includedIn left right = true ↔ left ⊆ right := by
  simp [includedIn, List.subset_def]

theorem sameSet_iff : sameSet left right = true ↔ ∀ a, a ∈ left ↔ a ∈ right := by
  rw [sameSet, Bool.and_eq_true, includedIn_iff, includedIn_iff]
  constructor
  · rintro ⟨hleft, hright⟩ a
    exact ⟨fun ha => hleft ha, fun ha => hright ha⟩
  · exact fun h => ⟨fun a ha => (h a).mp ha, fun a ha => (h a).mpr ha⟩

theorem nested_iff : nested left right = true ↔ left ⊆ right ∨ right ⊆ left := by
  rw [nested, Bool.or_eq_true, includedIn_iff, includedIn_iff]

end Lists

namespace Index

theorem columnNames_eq (i : Index) : i.columnNames = i.orderedColumns.map (·.1) := by
  rw [columnNames, orderedColumns, List.map_map]
  rfl

theorem covers_iff {i : Index} {names : List String} :
    i.covers names = true ↔
      names ≠ [] ∧ i.columnNames ≠ [] ∧
        (names <+: i.columnNames ∨
          ∃ rest, names = i.columnNames ++ rest ∧ rest ⊆ i.includedNames) := by
  rw [covers, Bool.or_eq_true, Bool.and_eq_true, leads_iff, leads_iff, includedIn_iff]
  constructor
  · rintro (⟨hne, hpre⟩ | ⟨⟨hne, rest, rfl⟩, hrest⟩)
    · exact ⟨hne, fun hnil => hne (List.prefix_nil.mp (hnil ▸ hpre)), .inl hpre⟩
    · rw [List.drop_left] at hrest
      exact ⟨fun hnil => hne (List.append_eq_nil_iff.mp hnil).1, hne, .inr ⟨rest, rfl, hrest⟩⟩
  · rintro ⟨hne, hkeys, hpre | ⟨rest, rfl, hrest⟩⟩
    · exact .inl ⟨hne, hpre⟩
    · rw [List.drop_left]
      exact .inr ⟨⟨hkeys, List.prefix_append _ _⟩, hrest⟩

theorem isRedundantWith_iff {i other : Index} :
    i.isRedundantWith other = true ↔
      (i.orderedColumns ≠ [] ∧ i.orderedColumns <+: other.orderedColumns ∨
        other.orderedColumns ≠ [] ∧ other.orderedColumns <+: i.orderedColumns) ∧
      (i.includedNames ⊆ other.includedNames ∨ other.includedNames ⊆ i.includedNames) := by
  rw [isRedundantWith, Bool.and_eq_true, Bool.or_eq_true, leads_iff, leads_iff, nested_iff]

end Index

namespace Table

theorem mem_candidates_iff {t : Table} {names : List String} :
    names ∈ t.candidates ↔
      (∃ k ∈ t.primaryKey.toList ++ t.uniqueKeys, k.columnNames = names) ∨
        ∃ i ∈ t.indexes, i.unique.isPresent = true ∧ i.columnNames = names := by
  rw [candidates, List.mem_append, List.mem_map, List.mem_map]
  simp only [List.mem_filter, and_assoc]

theorem isUniqueSet_iff {t : Table} {names : List String} :
    t.isUniqueSet names = true ↔
      names ≠ [] ∧ ∃ candidate ∈ t.candidates, ∀ a, a ∈ candidate ↔ a ∈ names := by
  simp only [isUniqueSet, Bool.and_eq_true, List.any_eq_true, sameSet_iff]
  simp

end Table

end SchemaAudit
