import Mathlib.Data.List.Count
import Mathlib.Data.List.Nodup
import SchemaAudit.Text.Basic

/-!
# Lists whose elements have distinct keys

Tables are found by name, and no two tables of a snapshot have the same name. So a table is found
from its name alone, wherever it stands (`find?_key_eq_some_iff`, `find?_key_perm`), and what only
one table can hold is counted in that table (`count_flatMap_of_owner`). Where repetitions are
possible they are removed first (`Text.mem_distinct`, `Text.distinct_nodup`).
-/

namespace SchemaAudit

variable {α κ : Type} [BEq κ] [LawfulBEq κ] {key : α → κ}

theorem key_of_find?_eq_some {k : κ} {as : List α} {a : α}
    (h : as.find? (key · == k) = some a) : key a = k := by
  have hk := List.find?_some h
  exact eq_of_beq hk

omit [BEq κ] [LawfulBEq κ] in
/-- Two elements of the same key are the same. -/
theorem eq_of_key_eq {as : List α} (hkeys : (as.map key).Nodup) {a b : α} (ha : a ∈ as)
    (hb : b ∈ as) (h : key a = key b) : a = b :=
  List.inj_on_of_nodup_map hkeys ha hb h

theorem find?_key_eq_some_iff {as : List α} (hkeys : (as.map key).Nodup) {k : κ} {a : α} :
    as.find? (key · == k) = some a ↔ a ∈ as ∧ key a = k := by
  constructor
  · intro h
    exact ⟨List.mem_of_find?_eq_some h, key_of_find?_eq_some h⟩
  · rintro ⟨ha, rfl⟩
    cases hfind : as.find? (key · == key a) with
    | none =>
      have hnone := List.find?_eq_none.mp hfind a ha
      exact absurd (beq_self_eq_true (key a)) hnone
    | some b =>
      have hkey := key_of_find?_eq_some hfind
      rw [eq_of_key_eq hkeys (List.mem_of_find?_eq_some hfind) ha hkey]

/-- The order of the elements does not matter for what is found. -/
theorem find?_key_perm {as bs : List α} (hkeys : (as.map key).Nodup) (h : as.Perm bs) (k : κ) :
    as.find? (key · == k) = bs.find? (key · == k) := by
  have hkeys' : (bs.map key).Nodup := (h.map key).nodup_iff.mp hkeys
  ext a
  rw [find?_key_eq_some_iff hkeys, find?_key_eq_some_iff hkeys', h.mem_iff]

omit [BEq κ] [LawfulBEq κ] in
/-- What only one element can contribute occurs as often as this element contributes it. -/
theorem count_flatMap_of_owner {β : Type} [BEq β] [LawfulBEq β] {f : α → List β} {b : β} :
    ∀ {as : List α}, (as.map key).Nodup → ∀ a ∈ as, (∀ c ∈ as, b ∈ f c → key c = key a) →
      (as.flatMap f).count b = (f a).count b
  | [], _, a, ha, _ => absurd ha List.not_mem_nil
  | c :: as, hkeys, a, ha, howner => by
    obtain ⟨hfirst, hrest⟩ := List.nodup_cons.mp hkeys
    rw [List.flatMap_cons, List.count_append]
    rcases List.mem_cons.mp ha with rfl | ha
    · have hnone : (as.flatMap f).count b = 0 := by
        refine List.count_eq_zero.mpr fun hb => ?_
        obtain ⟨c, hc, hbc⟩ := List.mem_flatMap.mp hb
        have hkey := howner c (List.mem_cons_of_mem a hc) hbc
        exact hfirst (List.mem_map.mpr ⟨c, hc, hkey⟩)
      rw [hnone, Nat.add_zero]
    · have hnone : (f c).count b = 0 := by
        refine List.count_eq_zero.mpr fun hb => ?_
        have hkey := howner c List.mem_cons_self hb
        exact hfirst (List.mem_map.mpr ⟨a, ha, hkey.symm⟩)
      rw [hnone, Nat.zero_add]
      exact count_flatMap_of_owner hrest a ha fun d hd => howner d (List.mem_cons_of_mem c hd)

/-! ### Lists without repetitions -/

omit [BEq κ] [LawfulBEq κ] in
@[simp] theorem Text.mem_distinct [BEq α] [LawfulBEq α] {as : List α} {a : α} :
    a ∈ Text.distinct as ↔ a ∈ as := by
  induction as with
  | nil => rfl
  | cons b as ih =>
    rw [Text.distinct, List.mem_cons, List.mem_filter, ih, List.mem_cons]
    by_cases hab : a = b
    · simp [hab]
    · simp [hab]

omit [BEq κ] [LawfulBEq κ] in
theorem Text.distinct_nodup [BEq α] [LawfulBEq α] (as : List α) : (Text.distinct as).Nodup := by
  induction as with
  | nil => exact List.nodup_nil
  | cons a as ih =>
    refine List.nodup_cons.mpr ⟨?_, ih.filter _⟩
    intro hmem
    simpa using (List.mem_filter.mp hmem).2

end SchemaAudit
