import Mathlib.Data.List.Forall2
import Mathlib.Data.List.Perm.Basic
import SchemaAudit.Proofs.Schema.ColumnSet

/-!
# What an index looks up, place by place

Whether an index looks up a list of columns is decided by two tests, of which one asks for a leading
list that is not empty and the other one cuts the list behind the key. Both come down to one
condition on the places of the list: at a place of the key stands the column of the key, and at a
place behind it an included column.

- `leads_or_leads_iff`: of two lists one leads the other exactly if they agree at every place that
  both have.
- `Index.LooksUp`: the condition on the places.
- `Index.covers_places`: the tests decide this condition. It speaks of the names in the key and of
  the set of included columns, so that directions and the order of included columns do not matter,
  and no lookup is lost with more of these.
-/

namespace SchemaAudit

section Places

variable {α : Type} {as bs : List α}

/-- The elements of two lists are the same at every place that both have. -/
def AgreeOnPlaces (as bs : List α) : Prop :=
  ∀ (k : ℕ) (a b : α), as[k]? = some a → bs[k]? = some b → a = b

theorem AgreeOnPlaces.symm (h : AgreeOnPlaces as bs) : AgreeOnPlaces bs as :=
  fun k b a hb ha => (h k a b ha hb).symm

theorem AgreeOnPlaces.of_leads (h : as <+: bs) : AgreeOnPlaces as bs := by
  intro k a b ha hb
  obtain ⟨hk, -⟩ := List.getElem?_eq_some_iff.mp ha
  obtain ⟨rest, rfl⟩ := h
  rw [List.getElem?_append_left hk, ha] at hb
  exact Option.some.inj hb

/-- The shorter one of two lists that agree leads the other one. -/
theorem AgreeOnPlaces.prefix_of_length_le (h : AgreeOnPlaces as bs)
    (hlength : as.length ≤ bs.length) : as <+: bs := by
  rw [List.prefix_iff_getElem?]
  intro k hk
  have hk' : k < bs.length := Nat.lt_of_lt_of_le hk hlength
  rw [List.getElem?_eq_getElem hk']
  exact congrArg some (h k _ _ (List.getElem?_eq_getElem hk) (List.getElem?_eq_getElem hk')).symm

theorem leads_or_leads_iff : as <+: bs ∨ bs <+: as ↔ AgreeOnPlaces as bs := by
  constructor
  · rintro (h | h)
    · exact .of_leads h
    · exact (AgreeOnPlaces.of_leads h).symm
  · intro h
    rcases Nat.le_total as.length bs.length with hle | hle
    · exact .inl (h.prefix_of_length_le hle)
    · exact .inr (h.symm.prefix_of_length_le hle)

/-- Behind the places of a first part stand the elements of the second part. -/
theorem forall_behind_iff {p : α → Prop} :
    (∀ (k : ℕ) (a : α), as.length ≤ k → (as ++ bs)[k]? = some a → p a) ↔ ∀ b ∈ bs, p b := by
  constructor
  · intro h b hb
    obtain ⟨k, hk⟩ := List.getElem?_of_mem hb
    refine h (as.length + k) b (Nat.le_add_right _ _) ?_
    rw [List.getElem?_append_right (Nat.le_add_right _ _), Nat.add_sub_cancel_left, hk]
  · intro h k a hk ha
    rw [List.getElem?_append_right hk] at ha
    exact h a (List.mem_of_getElem? ha)

end Places

namespace Index

/-- The index `i` has key columns and looks up the listed ones, of which there are some. At a place
of the key stands the column of the key, and at a place behind it an included column. -/
structure LooksUp (i : Index) (names : List String) : Prop where
  listed : names ≠ []
  keyed : i.columnNames ≠ []
  shared : AgreeOnPlaces names i.columnNames
  behind : ∀ (k : ℕ) (name : String),
    i.columnNames.length ≤ k → names[k]? = some name → name ∈ i.includedNames

/-- The key columns of two indexes are the same in whatever directions. Their names, filters and
included columns, and whether the indexes are unique, can differ. -/
def SameKey (i j : Index) : Prop :=
  List.Forall₂ (fun c d : IndexColumn => d.expression = c.expression ∧ d.column = c.column)
    i.columns j.columns

instance (i j : Index) : Decidable (i.SameKey j) := by
  unfold SameKey
  infer_instance

variable {i j : Index} {names : List String}

theorem SameKey.columnNames_eq (h : i.SameKey j) : j.columnNames = i.columnNames := by
  have hnames : List.Forall₂ (fun c d : IndexColumn => d.columnName = c.columnName)
      i.columns j.columns := by
    refine h.imp fun c d hcd => ?_
    rw [IndexColumn.columnName, IndexColumn.columnName, hcd.1, hcd.2]
  rw [columnNames, columnNames, ← List.forall₂_eq_eq_eq, List.forall₂_map_left_iff,
    List.forall₂_map_right_iff]
  exact hnames.flip

/-- The tests of an index decide what it looks up. -/
theorem covers_iff_looksUp : i.covers names = true ↔ i.LooksUp names := by
  rw [covers_iff]
  constructor
  · rintro ⟨hlisted, hkeyed, hpre | ⟨rest, rfl, hrest⟩⟩
    · refine ⟨hlisted, hkeyed, .of_leads hpre, fun k name hk hname => ?_⟩
      -- a list that leads the key has no place behind it
      obtain ⟨hlt, -⟩ := List.getElem?_eq_some_iff.mp hname
      have hle := hpre.length_le
      omega
    · exact ⟨hlisted, hkeyed, (AgreeOnPlaces.of_leads (List.prefix_append _ _)).symm,
        forall_behind_iff.mpr fun _ hname => hrest hname⟩
  · rintro ⟨hlisted, hkeyed, hshared, hbehind⟩
    refine ⟨hlisted, hkeyed, ?_⟩
    rcases leads_or_leads_iff.mpr hshared with hpre | ⟨rest, rfl⟩
    · exact .inl hpre
    · exact .inr ⟨rest, rfl, fun _ hname => forall_behind_iff.mp hbehind _ hname⟩

/-- Nothing is lost with more included columns. -/
theorem LooksUp.mono (h : i.LooksUp names) (hkey : i.SameKey j)
    (hincluded : i.included ⊆ j.included) : j.LooksUp names := by
  have hnames : i.includedNames ⊆ j.includedNames := List.map_subset _ hincluded
  obtain ⟨hlisted, hkeyed, hshared, hbehind⟩ := h
  rw [← hkey.columnNames_eq] at hkeyed hshared hbehind
  exact ⟨hlisted, hkeyed, hshared, fun k name hk hname => hnames (hbehind k name hk hname)⟩

theorem SameKey.symm (h : i.SameKey j) : j.SameKey i :=
  h.flip.imp fun _ _ hcd => ⟨hcd.1.symm, hcd.2.symm⟩

/-- **What an index looks up.** An index looks up a list of columns exactly if the list and the key
are not empty, they agree at every place that both have, and what the list has behind the key is
included. This does not change with the directions of the key columns and the order of the included
ones, and it stays so when columns are included besides. -/
theorem covers_places (i : Index) (names : List String) :
    (i.covers names = true ↔ i.LooksUp names) ∧
      (∀ j : Index, i.SameKey j → j.included.Perm i.included → j.covers names = i.covers names) ∧
      ∀ j : Index, i.SameKey j → i.included ⊆ j.included →
        i.covers names = true → j.covers names = true := by
  have hmore : ∀ {j k : Index}, j.SameKey k → j.included ⊆ k.included →
      j.covers names = true → k.covers names = true := by
    intro j k hkey hincluded hcovers
    exact covers_iff_looksUp.mpr ((covers_iff_looksUp.mp hcovers).mono hkey hincluded)
  refine ⟨covers_iff_looksUp, fun j hkey hperm => ?_, fun j => hmore⟩
  rw [Bool.eq_iff_iff]
  exact ⟨hmore hkey.symm hperm.subset, hmore hkey hperm.symm.subset⟩

/-- An index of trips by line and by the hour of departure, in the given directions and with
included columns. The hour is an expression and no column of the table. -/
def byLineAndHour (line hour : Direction) (included : List String) : Index where
  name := .text "by line and hour"
  columns := [⟨"line", line, some ⟨"line", ⟨"text", .text⟩, .bool false, none, none, .null⟩⟩,
    ⟨"hour(departure)", hour, none⟩]
  included := included.map fun name => { name := name, type := ⟨"int", .integer⟩ }

/-- Two included columns are looked up behind the key, one of them twice, with other directions and
the included columns in another order as well. A third included column adds a lookup. -/
theorem byLineAndHour_covers :
    let i := byLineAndHour .ascending .descending ["stop", "platform"]
    let j := byLineAndHour .descending .descending ["platform", "stop"]
    let k := byLineAndHour .ascending .ascending ["driver", "stop", "platform"]
    let names := ["line", "hour(departure)", "platform", "stop", "platform"]
    i.SameKey j ∧ j.included.Perm i.included ∧ i.SameKey k ∧ i.included ⊆ k.included ∧
      i.LooksUp names ∧ j.covers names = true ∧ k.covers names = true ∧
      i.covers (names ++ ["driver"]) = false ∧ k.covers (names ++ ["driver"]) = true := by
  intro i j k names
  have hj : i.SameKey j := by decide +kernel
  have hk : i.SameKey k := by decide +kernel
  have hperm : j.included.Perm i.included := .swap _ _ _
  have hincluded : i.included ⊆ k.included := List.subset_cons_self _ _
  have hcovers : i.covers names = true := by decide +kernel
  obtain ⟨hiff, hdirections, hmore⟩ := covers_places i names
  exact ⟨hj, hperm, hk, hincluded, hiff.mp hcovers, (hdirections j hj hperm).trans hcovers,
    hmore k hk hincluded hcovers, by decide +kernel, by decide +kernel⟩

end Index

end SchemaAudit
