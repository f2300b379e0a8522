import Mathlib.Data.List.FinRange
import Mathlib.Data.Sym.Sym2
import SchemaAudit.Proofs.Lint.RedundantIndexes

/-!
# Which pairs of indexes are reported

The rule about redundant indexes goes through the pairs of places of a table's list of indexes. Two
indexes can be equal, so the pairs are told apart by their places and not by what stands there. The
test of a pair is the same both ways; only which index is named depends on the order, and only where
the two have equally many columns.

- `Index.Overlaps`: two indexes of which one can be unnecessary.
- `ReportedPlaces`: the places of the reported pairs, and which index of each pair is named.
- `redundancyText`: the text of a message, which shows the two indexes of a pair.
- `pairs_filterMap_perm`: what is made of pairs without regard to their order does not depend on the
  order of the list.
- `redundantPairs_report`: the rule reports exactly these pairs, in whatever order the indexes
  stand.
-/

namespace SchemaAudit

/-- Two indexes have key columns, and the key of one leads that of the other with the same
directions. The included columns of one are among those of the other, either way round. -/
structure Index.Overlaps (i j : Index) : Prop where
  left : i.orderedColumns ≠ []
  right : j.orderedColumns ≠ []
  keys : i.orderedColumns <+: j.orderedColumns ∨ j.orderedColumns <+: i.orderedColumns
  included : i.includedNames ⊆ j.includedNames ∨ j.includedNames ⊆ i.includedNames

theorem Index.Overlaps.symm {i j : Index} (h : i.Overlaps j) : j.Overlaps i :=
  ⟨h.right, h.left, h.keys.symm, h.included.symm⟩

namespace Lint

/-- Of the indexes `i` and `j`, declared in this order, the first one of `p` is named as redundant
because of the second one. Its key leads the other key, and where the keys are equal it is `i`. -/
structure NamesOf (i j : Index) (p : Index × Index) : Prop where
  pair : s(p.1, p.2) = s(i, j)
  leads : p.1.orderedColumns <+: p.2.orderedColumns
  first : i.orderedColumns = j.orderedColumns → p = (i, j)

/-- The pairs of places of a table's indexes that the rule reports. -/
structure ReportedPlaces (t : Table)
    (places : List (Fin t.indexes.length × Fin t.indexes.length)) : Prop where
  /-- The pairs stand in the order of declaration, so that none is there twice. -/
  order : places.Pairwise (Prod.Lex (· < ·) (· < ·))
  /-- An unordered pair is there, the earlier place first, exactly if its indexes overlap. -/
  overlapping : ∀ i j, (i, j) ∈ places ↔ i < j ∧ (t.indexes.get i).Overlaps (t.indexes.get j)
  /-- Each pair is reported once, with one of its indexes named as redundant. -/
  named : List.Forall₂ (fun p q => NamesOf (t.indexes.get p.1) (t.indexes.get p.2) q)
    places (redundantPairs t)

/-- How a message shows a column of an index: by its name, and by the mark of the downward
direction. -/
def columnText (c : IndexColumn) : String :=
  c.columnName ++ if c.direction = .descending then " DESC" else ""

/-- How a message shows an index: by its name between quotes, where it has one, and by its columns
in parentheses. -/
def indexText (i : Index) : String :=
  (if i.name.isPresent then "index '" ++ i.name.display ++ "' (" else "index (") ++
    String.intercalate ", " (i.columns.map columnText) ++ ")"

/-- What is said of a pair of indexes, the redundant one first. -/
def redundancyText (t : Table) (p : Index × Index) : String :=
  "The table " ++ t.name.text ++ " has an " ++ indexText p.1 ++ " which may be redundant, " ++
    "as its key columns are a prefix of the " ++ indexText p.2 ++ "."

/-- The reported pairs whose indexes have differently many columns. -/
def unequalPairs (t : Table) : List (Index × Index) :=
  (redundantPairs t).filter fun p => p.1.columns.length != p.2.columns.length

/-! ### The pairs of a list -/

section Pairs

variable {α β : Type}

theorem pairs_map (f : α → β) (as : List α) :
    pairs (as.map f) = (pairs as).map fun p => (f p.1, f p.2) := by
  induction as with
  | nil => rfl
  | cons a as ih =>
    rw [List.map_cons, pairs, pairs, List.map_append, ih, List.map_map, List.map_map]
    rfl

/-- The pairs of an ordered list are ordered by their first and then by their second element. -/
theorem pairs_pairwise {r : α → α → Prop} {as : List α} (h : as.Pairwise r) :
    (pairs as).Pairwise (Prod.Lex r r) := by
  induction as with
  | nil => exact List.Pairwise.nil
  | cons a as ih =>
    obtain ⟨hfirst, hrest⟩ := List.pairwise_cons.mp h
    rw [pairs]
    refine List.pairwise_append.mpr ⟨?_, ih hrest, ?_⟩
    · exact List.pairwise_map.mpr (hrest.imp fun hbc => Prod.Lex.right a hbc)
    · intro p hp q hq
      obtain ⟨b, -, rfl⟩ := List.mem_map.mp hp
      have hsublist : [q.1, q.2].Sublist as := mem_pairs_iff.mp hq
      exact Prod.Lex.left _ _ (hfirst q.1 (hsublist.subset List.mem_cons_self))

/-- The pairs of places of a list are those of an earlier and a later place. -/
theorem mem_pairs_finRange_iff {n : Nat} {i j : Fin n} :
    (i, j) ∈ pairs (List.finRange n) ↔ i < j := by
  have hsorted := List.pairwise_lt_finRange n
  rw [mem_pairs_iff]
  constructor
  · intro h
    exact List.rel_of_pairwise_cons (hsorted.sublist h) (List.mem_singleton_self j)
  · intro hij
    obtain ⟨before, after, hsplit⟩ := List.append_of_mem (List.mem_finRange i)
    rw [hsplit] at hsorted ⊢
    have hj : j ∈ before ++ i :: after := hsplit ▸ List.mem_finRange j
    rcases List.mem_append.mp hj with hbefore | hbehind
    · -- what stands before a place is an earlier one
      have hlt := (List.pairwise_append.mp hsorted).2.2 j hbefore i List.mem_cons_self
      exact absurd hlt (Fin.lt_asymm hij)
    · rcases List.mem_cons.mp hbehind with rfl | hafter
      · exact absurd hij (Fin.lt_irrefl j)
      · have hpair : [i, j].Sublist (i :: after) := (List.singleton_sublist.mpr hafter).cons_cons i
        exact hpair.trans (List.sublist_append_right before _)

/-- What is made of the pairs of a list without regard to their order does not depend on the order
of the list. -/
theorem pairs_filterMap_perm {f : α × α → Option β} (hf : ∀ a b, f (a, b) = f (b, a))
    {as bs : List α} (h : as.Perm bs) : ((pairs as).filterMap f).Perm ((pairs bs).filterMap f) := by
  induction h with
  | nil => exact .refl _
  | cons a h ih =>
    rw [pairs, pairs, List.filterMap_append, List.filterMap_append]
    exact ((h.map _).filterMap f).append ih
  | swap a b as =>
    have hhead : ((pairs [b, a]).filterMap f) = (pairs [a, b]).filterMap f := by
      show [(b, a)].filterMap f = [(a, b)].filterMap f
      rw [List.filterMap_cons, List.filterMap_cons, hf b a]
    have hsplit : ∀ c d, (pairs (c :: d :: as)).filterMap f =
        (pairs [c, d]).filterMap f ++ ((as.map fun x => (c, x)).filterMap f ++
          ((as.map fun x => (d, x)).filterMap f ++ (pairs as).filterMap f)) := by
      intro c d
      rw [← List.filterMap_append, ← List.filterMap_append, ← List.filterMap_append]
      rfl
    rw [hsplit, hsplit, hhead]
    exact (List.perm_append_comm_assoc _ _ _).append_left _
  | trans _ _ ih ih' => exact ih.trans ih'

end Pairs

/-! ### The test of a pair -/

theorem overlaps_iff {i j : Index} : i.isRedundantWith j = true ↔ i.Overlaps j := by
  rw [Index.isRedundantWith_iff]
  constructor
  · rintro ⟨⟨hne, hkeys⟩ | ⟨hne, hkeys⟩, hincluded⟩
    · -- a key that is led by one with columns has columns
      have hright : j.orderedColumns ≠ [] := fun hnil => hne (List.prefix_nil.mp (hnil ▸ hkeys))
      exact ⟨hne, hright, .inl hkeys, hincluded⟩
    · have hleft : i.orderedColumns ≠ [] := fun hnil => hne (List.prefix_nil.mp (hnil ▸ hkeys))
      exact ⟨hleft, hne, .inr hkeys, hincluded⟩
  · rintro ⟨hleft, hright, hkeys, hincluded⟩
    refine ⟨?_, hincluded⟩
    rcases hkeys with hkeys | hkeys
    · exact .inl ⟨hleft, hkeys⟩
    · exact .inr ⟨hright, hkeys⟩

theorem isRedundantWith_comm (i j : Index) : i.isRedundantWith j = j.isRedundantWith i := by
  rw [Bool.eq_iff_iff, overlaps_iff, overlaps_iff]
  exact ⟨fun h => h.symm, fun h => h.symm⟩

theorem length_orderedColumns (i : Index) : i.orderedColumns.length = i.columns.length := by
  rw [Index.orderedColumns, List.length_map]

/-- The index with fewer columns is the one whose key leads the other key. -/
theorem namesOf_shorterFirst {i j : Index} (h : i.Overlaps j) :
    NamesOf i j (shorterFirst (i, j)) := by
  have hleft := length_orderedColumns i
  have hright := length_orderedColumns j
  by_cases hshorter : j.columns.length < i.columns.length
  · have hpair : shorterFirst (i, j) = (j, i) := by
      rw [shorterFirst]
      exact if_pos hshorter
    rw [hpair]
    refine ⟨Sym2.eq_swap, ?_, ?_⟩
    · rcases h.keys with hkeys | hkeys
      · have hle := hkeys.length_le
        omega
      · exact hkeys
    · intro heq
      rw [heq] at hleft
      omega
  · have hpair : shorterFirst (i, j) = (i, j) := by
      rw [shorterFirst]
      exact if_neg hshorter
    rw [hpair]
    refine ⟨rfl, ?_, fun _ => rfl⟩
    rcases h.keys with hkeys | hkeys
    · exact hkeys
    · -- a key that is led by one that is not shorter is the same key
      have hsame : j.orderedColumns = i.orderedColumns := hkeys.eq_of_length_le (by omega)
      exact hsame ▸ List.prefix_rfl

/-- Where the lengths differ, it does not matter in which order the two indexes are given. -/
theorem shorterFirst_swap {i j : Index} (h : i.columns.length ≠ j.columns.length) :
    shorterFirst (i, j) = shorterFirst (j, i) := by
  rw [shorterFirst, shorterFirst]
  by_cases hlt : j.columns.length < i.columns.length
  · rw [if_pos hlt, if_neg (Nat.not_lt.mpr (Nat.le_of_lt hlt))]
  · have hgt : i.columns.length < j.columns.length := by omega
    rw [if_neg hlt, if_pos hgt]

/-! ### The reported pairs -/

/-- The indexes at two places. -/
def indexesAt (t : Table) (p : Fin t.indexes.length × Fin t.indexes.length) : Index × Index :=
  (t.indexes.get p.1, t.indexes.get p.2)

/-- The pairs of places whose indexes pass the test. -/
def redundantPlaces (t : Table) : List (Fin t.indexes.length × Fin t.indexes.length) :=
  (pairs (List.finRange t.indexes.length)).filter fun p =>
    (indexesAt t p).1.isRedundantWith (indexesAt t p).2

theorem mem_redundantPlaces_iff {t : Table} {i j : Fin t.indexes.length} :
    (i, j) ∈ redundantPlaces t ↔ i < j ∧ (t.indexes.get i).Overlaps (t.indexes.get j) := by
  rw [redundantPlaces, List.mem_filter, mem_pairs_finRange_iff, overlaps_iff]
  rfl

/-- The rule goes through the indexes, which are those at all places. -/
theorem redundantPairs_eq_map (t : Table) :
    redundantPairs t = (redundantPlaces t).map fun p => shorterFirst (indexesAt t p) := by
  have hindexes : pairs t.indexes = (pairs (List.finRange t.indexes.length)).map (indexesAt t) := by
    have hall : (List.finRange t.indexes.length).map t.indexes.get = t.indexes :=
      List.map_get_finRange t.indexes
    have hpairs := pairs_map t.indexes.get (List.finRange t.indexes.length)
    rwa [hall] at hpairs
  rw [redundantPairs, hindexes, List.filter_map, List.map_map]
  rfl

theorem reportedPlaces_redundantPlaces (t : Table) : ReportedPlaces t (redundantPlaces t) := by
  refine ⟨?_, fun i j => mem_redundantPlaces_iff, ?_⟩
  · exact (pairs_pairwise (List.pairwise_lt_finRange _)).filter _
  · rw [redundantPairs_eq_map, List.forall₂_map_right_iff]
    refine List.forall₂_same.mpr fun p hp => ?_
    -- a pair is named by the test that it has passed
    obtain ⟨-, hoverlaps⟩ := mem_redundantPlaces_iff.mp hp
    exact namesOf_shorterFirst hoverlaps

/-- The reported pairs without their order. -/
theorem redundantPairs_unordered (t : Table) :
    ((redundantPairs t).map fun p => s(p.1, p.2)) =
      (pairs t.indexes).filterMap fun p =>
        if p.1.isRedundantWith p.2 then some s(p.1, p.2) else none := by
  have hswap : ∀ p : Index × Index, s((shorterFirst p).1, (shorterFirst p).2) = s(p.1, p.2) := by
    intro p
    rw [shorterFirst]
    split
    · exact Sym2.eq_swap
    · rfl
  rw [← List.filterMap_filter, redundantPairs, List.map_map, ← List.filterMap_eq_map]
  congr 1
  funext p
  exact congrArg some (hswap p)

/-- The reported pairs of differently many columns, made of all pairs. -/
theorem unequalPairs_eq (t : Table) :
    unequalPairs t =
      (pairs t.indexes).filterMap fun p =>
        if p.1.columns.length != p.2.columns.length && p.1.isRedundantWith p.2 then
          some (shorterFirst p) else none := by
  have hlength : ∀ p : Index × Index,
      ((shorterFirst p).1.columns.length != (shorterFirst p).2.columns.length) =
        (p.1.columns.length != p.2.columns.length) := by
    intro p
    rw [shorterFirst]
    split
    · exact bne_comm
    · rfl
  rw [← List.filterMap_filter, unequalPairs, redundantPairs, List.filter_map, List.filter_filter,
    ← List.filterMap_eq_map]
  simp only [Function.comp_apply, hlength]

/-- Which unordered pairs are reported does not depend on the order of the indexes. -/
theorem redundantPairs_perm {t u : Table} (h : u.indexes.Perm t.indexes) :
    ((redundantPairs u).map fun p => s(p.1, p.2)).Perm
      ((redundantPairs t).map fun p => s(p.1, p.2)) := by
  rw [redundantPairs_unordered, redundantPairs_unordered]
  refine pairs_filterMap_perm (fun i j => ?_) h
  simp only [isRedundantWith_comm i j, Sym2.eq_swap (a := i) (b := j)]

/-- Which index is named does not depend on it either, where the lengths differ. -/
theorem unequalPairs_perm {t u : Table} (h : u.indexes.Perm t.indexes) :
    (unequalPairs u).Perm (unequalPairs t) := by
  rw [unequalPairs_eq, unequalPairs_eq]
  refine pairs_filterMap_perm (fun i j => ?_) h
  by_cases hlength : i.columns.length = j.columns.length
  · simp only [hlength, bne_self_eq_false, Bool.false_and]
    rfl
  · simp only [isRedundantWith_comm i j, shorterFirst_swap hlength,
      bne_comm (a := i.columns.length)]

/-! ### The texts -/

theorem text_wording (i : Index) : i.wording.text = indexText i := by
  have hcolumns : i.orderedColumns.map describeDirection = i.columns.map columnText := by
    rw [Index.orderedColumns, List.map_map]
    refine List.map_congr_left fun c _ => ?_
    rw [Function.comp_apply, describeDirection, columnText]
    cases c.direction with
    | ascending => exact String.append_empty.symm
    | descending => rfl
  have hnamed : "index '" = "index" ++ " '" := rfl
  have hbehind : "' (" = "' " ++ "(" := rfl
  have hunnamed : "index (" = "index" ++ (" " ++ "(") := rfl
  unfold Index.wording describeNamed describeColumns indexText
  simp only [hcolumns, hnamed, hbehind, hunnamed]
  split
  · simp [-String.reduceAppend, String.append_assoc]
  · simp [-String.reduceAppend, String.append_assoc]

/-- The texts show the reported pairs. -/
theorem redundantIndexes_texts (t : Table) :
    (redundantIndexes t).map Wording.text = (redundantPairs t).map (redundancyText t) := by
  rw [redundantIndexes, List.map_map]
  refine List.map_congr_left fun p _ => ?_
  delta redundancyText
  simp only [Function.comp_apply, ← text_wording, Wording.text_append, Wording.text_cons,
    Wording.text_nil, Piece.text_words, String.append_empty, String.append_assoc, toString,
    -String.reduceAppend]

end Lint

/-- **Exactly the overlapping pairs are reported.** The rule about redundant indexes has one message
for each pair of places whose indexes overlap, in the order of declaration, and the index that it
names as redundant has the leading key. For the same indexes in another order it reports the same
pairs, and names the same index of those that have differently many columns. -/
theorem redundantPairs_report (t : Table) (level : Level) :
    let rule : Rule := ⟨.redundantIndexes, level⟩
    (∃ places, Lint.ReportedPlaces t places) ∧
      rule.messages (.tables [t]) =
        (Lint.redundantPairs t).map (fun p => rule.say t.name (Lint.redundancyText t p)) ∧
      ∀ u : Table, u.indexes.Perm t.indexes →
        ((Lint.redundantPairs u).map fun p => s(p.1, p.2)).Perm
          ((Lint.redundantPairs t).map fun p => s(p.1, p.2)) ∧
        (Lint.unequalPairs u).Perm (Lint.unequalPairs t) := by
  intro rule
  refine ⟨⟨_, Lint.reportedPlaces_redundantPlaces t⟩, ?_, fun u h => ?_⟩
  · have hfindings : rule.inspection.findings (.tables [t]) =
        (Lint.redundantIndexes t).map fun text => (t.name, text) := by
      show List.flatten [(Lint.redundantIndexes t).map fun text => (t.name, text)] = _
      rw [List.flatten_cons, List.flatten_nil, List.append_nil]
    calc rule.messages (.tables [t])
        = ((Lint.redundantIndexes t).map Wording.text).map (rule.say t.name) := by
          rw [Rule.messages, hfindings, List.map_map, List.map_map]
          rfl
      _ = (Lint.redundantPairs t).map fun p => rule.say t.name (Lint.redundancyText t p) := by
          rw [Lint.redundantIndexes_texts, List.map_map]
          rfl
  · exact ⟨Lint.redundantPairs_perm h, Lint.unequalPairs_perm h⟩

/-- Of three indexes that overlap, two have equal keys. In another order the same pairs are
reported, and only of these two another one is named. The messages name the redundant index
first. -/
theorem rooms_report :
    let t := rooms [byNumberFloor, byNumber, byNumberAgain]
    let u := rooms [byNumberAgain, byNumber, byNumberFloor]
    u.indexes.Perm t.indexes ∧
      Lint.redundantPairs t =
        [(byNumber, byNumberFloor), (byNumberAgain, byNumberFloor), (byNumber, byNumberAgain)] ∧
      Lint.redundantPairs u =
        [(byNumberAgain, byNumber), (byNumberAgain, byNumberFloor), (byNumber, byNumberFloor)] ∧
      ((Lint.redundantPairs u).map fun p => s(p.1, p.2)).Perm
        ((Lint.redundantPairs t).map fun p => s(p.1, p.2)) ∧
      (Lint.unequalPairs u).Perm (Lint.unequalPairs t) ∧ (Lint.unequalPairs t).length = 2 ∧
      (Rule.messages ⟨.redundantIndexes, .warning⟩ (.tables [t])).map (·.text) =
        ["The table rooms has an index 'by_number' (number) which may be redundant, as its key " ++
            "columns are a prefix of the index 'by_number_floor' (number, floor).",
          "The table rooms has an index 'by_number_again' (number) which may be redundant, as " ++
            "its key columns are a prefix of the index 'by_number_floor' (number, floor).",
          "The table rooms has an index 'by_number' (number) which may be redundant, as its key " ++
            "columns are a prefix of the index 'by_number_again' (number)."] := by
  intro t u
  have hperm : u.indexes.Perm t.indexes := List.reverse_perm t.indexes
  obtain ⟨-, hmessages, hreordered⟩ := redundantPairs_report t .warning
  obtain ⟨hpairs, hunequal⟩ := hreordered u hperm
  refine ⟨hperm, by decide +kernel, by decide +kernel, hpairs, hunequal, by decide +kernel, ?_⟩
  rw [hmessages]
  decide +kernel

end SchemaAudit
