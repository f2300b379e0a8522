import Mathlib.Data.List.Cycle
import Mathlib.Data.Set.Card
import Mathlib.Logic.Relation
import SchemaAudit.Graph.Cycle

/-!
# What the enumeration of cycles finds

`Graph.cycles` searches from one node after the other, and each search goes through later nodes
only. The order of the nodes and of their targets decides in which order the cycles are found and
where each of them starts, but not which cycles there are. So the walks are compared as Mathlib's
`Cycle`s, lists up to rotation.

- `mem_closedWalks_iff`: one search finds the closed walks through its free nodes.
- `mem_rounds_iff`, `rounds_nodup`: all searches together find every elementary cycle, once.
- `rounds_perm`: graphs with the same links have the same cycles.
- `cycles_eq_nil_iff`: there is no cycle exactly if the nodes have ranks that descend along the
  links.
-/

namespace SchemaAudit.Graph

/-! ### Closed walks and their rotations -/

section Walks

variable {α : Type}

/-- A closed walk up to rotation. Its first node, repeated at the end, is counted once. -/
def round (w : List α) : Cycle α :=
  (w.dropLast : Cycle α)

theorem round_closed (start : α) (mid : List α) :
    round (start :: mid ++ [start]) = (start :: mid : List α) := by
  rw [round, List.dropLast_concat]

theorem exists_mem_of_ne_nil {c : Cycle α} (hc : c ≠ Cycle.nil) : ∃ a, a ∈ c := by
  induction c using Cycle.induction_on with
  | nil => exact absurd rfl hc
  | cons a l _ => exact ⟨a, Cycle.mem_coe_iff.mpr List.mem_cons_self⟩

/-- A cycle can be read from any of its nodes. -/
theorem exists_reading {c : Cycle α} {a : α} (ha : a ∈ c) :
    ∃ mid : List α, c = (a :: mid : List α) := by
  induction c using Cycle.induction_on with
  | nil => exact absurd ha (Cycle.notMem_nil a)
  | cons b l _ =>
    obtain ⟨l₁, l₂, hl⟩ := List.append_of_mem (Cycle.mem_coe_iff.mp ha)
    rw [hl]
    exact ⟨l₂ ++ l₁, Cycle.coe_eq_coe.mpr List.isRotated_append⟩

/-- Read from a given node, a cycle without repetition has one reading. -/
theorem reading_unique {a : α} {mid mid' : List α} (hnodup : (a :: mid).Nodup)
    (h : ((a :: mid : List α) : Cycle α) = (a :: mid' : List α)) : mid = mid' := by
  obtain ⟨n, hrotate⟩ := Cycle.coe_eq_coe.mp h
  -- only a rotation by a multiple of the length brings the first node to the front again
  have hfront : (a :: mid)[n % (a :: mid).length]? = some a := by
    rw [← List.head?_rotate (Nat.mod_lt n (by simp)), List.rotate_mod, hrotate]
    rfl
  have hzero : n % (a :: mid).length = 0 := by
    have hlt : n % (a :: mid).length < (a :: mid).length := Nat.mod_lt n (by simp)
    rw [List.getElem?_eq_getElem hlt, Option.some.injEq] at hfront
    have hfirst : (a :: mid)[n % (a :: mid).length] = (a :: mid)[0] := hfront
    exact hnodup.getElem_inj_iff.mp hfirst
  rw [hnodup.rotate_eq_self_iff.mpr (Or.inl hzero)] at hrotate
  exact (List.cons.inj hrotate).2

/-- A way of at least one step is a list of the nodes between its ends. -/
theorem exists_chain_of_transGen {r : α → α → Prop} {a b : α} (h : Relation.TransGen r a b) :
    ∃ mid, List.IsChain r (a :: mid ++ [b]) := by
  induction h with
  | single hab => exact ⟨[], List.isChain_pair.mpr hab⟩
  | @tail b c _ hbc ih =>
    obtain ⟨mid, hmid⟩ := ih
    refine ⟨mid ++ [b], ?_⟩
    rw [← List.cons_append]
    exact hmid.append_overlap (List.isChain_pair.mpr hbc) (List.cons_ne_nil b [])

theorem exists_repetition {l : List α} (h : ¬ l.Nodup) :
    ∃ p x q s, l = p ++ (x :: q ++ [x]) ++ s := by
  induction l with
  | nil => exact absurd List.nodup_nil h
  | cons a l ih =>
    by_cases ha : a ∈ l
    · obtain ⟨q, s, rfl⟩ := List.append_of_mem ha
      exact ⟨[], a, q, s, by simp⟩
    · have hl : ¬ l.Nodup := fun hl => h (List.nodup_cons.mpr ⟨ha, hl⟩)
      obtain ⟨p, x, q, s, rfl⟩ := ih hl
      exact ⟨a :: p, x, q, s, rfl⟩

/-- Every closed walk contains an elementary cycle: while a node is repeated, the part between its
two places is a shorter closed walk. -/
theorem exists_elementary {r : α → α → Prop} {a : α} {mid : List α}
    (h : List.IsChain r (a :: mid ++ [a])) :
    ∃ c : Cycle α, c ≠ Cycle.nil ∧ c.Nodup ∧ c.Chain r := by
  induction hn : mid.length using Nat.strong_induction_on generalizing a mid with
  | _ n ih =>
    by_cases hnodup : (a :: mid).Nodup
    · exact ⟨(a :: mid : List α), fun hnil => absurd ((Cycle.coe_eq_nil _).mp hnil)
        (List.cons_ne_nil a mid), Cycle.nodup_coe_iff.mpr hnodup, h⟩
    · obtain ⟨p, x, q, s, hsplit⟩ := exists_repetition hnodup
      have hlength : q.length < n := by
        have hl := congrArg List.length hsplit
        simp only [List.length_append, List.length_cons, List.length_nil] at hl
        omega
      have hpart : List.IsChain r (x :: q ++ [x]) := by
        refine h.infix ⟨p, s ++ [a], ?_⟩
        rw [hsplit, List.append_assoc _ s]
      exact ih q.length hlength hpart rfl

end Walks

/-! ### The edges of a graph -/

variable {α : Type} [BEq α] {g : Graph α}

/-- There is an edge from `a` to `b`. -/
def Edge (g : Graph α) (a b : α) : Prop :=
  b ∈ g.targets a

/-- There is an edge from `a` to `b`, and both are nodes. Targets outside the graph are passed
over by the search. -/
def Link (g : Graph α) (a b : α) : Prop :=
  g.Edge a b ∧ a ∈ g.nodes ∧ b ∈ g.nodes

/-- No node and no target is listed twice. -/
structure Simple (g : Graph α) : Prop where
  nodes : g.nodes.Nodup
  targets : ∀ e ∈ g, e.2.Nodup

/-- The cycles that are found, up to rotation. -/
def rounds (g : Graph α) : List (Cycle α) :=
  g.cycles.map round

variable [LawfulBEq α]

theorem put_of_notMem {node : α} {ts : List α} {g : Graph α} (h : node ∉ g.nodes) :
    g.put node ts = g ++ [(node, ts)] := by
  induction g with
  | nil => rfl
  | cons e g ih =>
    rw [nodes, List.map_cons, List.mem_cons, not_or] at h
    have hne : (e.1 == node) = false := beq_eq_false_iff_ne.mpr (Ne.symm h.1)
    rw [put, hne, ih h.2]
    rfl

theorem foldl_put {es : List (α × List α)} {g : Graph α} (h : ((g ++ es).map (·.1)).Nodup) :
    es.foldl (fun g e => g.put e.1 e.2) g = g ++ es := by
  induction es generalizing g with
  | nil => exact (List.append_nil g).symm
  | cons e es ih =>
    have hfresh : e.1 ∉ g.nodes := by
      rw [List.map_append, List.map_cons] at h
      intro hmem
      exact (List.nodup_append.mp h).2.2 e.1 hmem e.1 List.mem_cons_self rfl
    rw [List.foldl_cons, put_of_notMem hfresh]
    rw [ih (g := g ++ [e]) (by rwa [List.append_assoc]), List.append_assoc]
    rfl

/-- Adding entries for distinct nodes keeps them as they are. -/
theorem ofEntries_eq {entries : List (α × List α)} (h : (entries.map (·.1)).Nodup) :
    ofEntries entries = entries :=
  foldl_put (g := []) h

/-- Every edge is a target of an entry. -/
theorem exists_of_edge {a b : α} (h : g.Edge a b) : ∃ e ∈ g, e.1 = a ∧ b ∈ e.2 := by
  rw [Edge, targets] at h
  cases hlookup : g.lookup a with
  | none =>
    rw [hlookup] at h
    exact absurd h List.not_mem_nil
  | some ts =>
    rw [hlookup] at h
    obtain ⟨l₁, l₂, rfl, -⟩ := List.lookup_eq_some_iff.mp hlookup
    exact ⟨(a, ts), by simp, rfl, h⟩

/-- The edges are the targets of the entries. -/
theorem edge_iff (hg : g.nodes.Nodup) {a b : α} : g.Edge a b ↔ ∃ e ∈ g, e.1 = a ∧ b ∈ e.2 := by
  constructor
  · exact exists_of_edge
  · rintro ⟨⟨n, ts⟩, he, rfl, hb⟩
    rw [Edge, targets]
    obtain ⟨l₁, l₂, rfl⟩ := List.append_of_mem he
    have hlookup : List.lookup n (l₁ ++ (n, ts) :: l₂) = some ts := by
      refine List.lookup_eq_some_iff.mpr ⟨l₁, l₂, rfl, ?_⟩
      intro p hp
      rw [nodes, List.map_append, List.map_cons] at hg
      have hne := (List.nodup_append.mp hg).2.2 p.1 (List.mem_map_of_mem hp) n List.mem_cons_self
      exact bne_iff_ne.mpr (Ne.symm hne)
    rw [hlookup]
    exact hb

theorem Simple.targets_nodup (hg : g.Simple) (a : α) : (g.targets a).Nodup := by
  rw [Graph.targets]
  cases hlookup : g.lookup a with
  | none => exact List.nodup_nil
  | some ts =>
    obtain ⟨l₁, l₂, rfl, -⟩ := List.lookup_eq_some_iff.mp hlookup
    exact hg.targets (a, ts) (by simp)

/-! ### One search -/

/-- From `node`, the nodes `mid` lead back to `start`, through free nodes and without repetition. -/
structure Returns (g : Graph α) (start node : α) (free mid : List α) : Prop where
  nodup : mid.Nodup
  free : mid ⊆ free
  chain : List.IsChain g.Edge (node :: mid ++ [start])

omit [LawfulBEq α] in
theorem returns_nil_iff {start node : α} {free : List α} :
    g.Returns start node free [] ↔ g.Edge node start := by
  constructor
  · exact fun h => List.isChain_pair.mp h.chain
  · exact fun h => ⟨List.nodup_nil, List.nil_subset free, List.isChain_pair.mpr h⟩

/-- After a step to a free node `t`, that node is not free any more. -/
theorem returns_cons_iff {start node t : α} {free mid : List α} :
    g.Returns start node free (t :: mid) ↔
      g.Edge node t ∧ t ∈ free ∧
        g.Returns start t (free.filter fun n => !(n == t)) mid := by
  constructor
  · rintro ⟨hnodup, hfree, hchain⟩
    obtain ⟨hnot, hmid⟩ := List.nodup_cons.mp hnodup
    obtain ⟨ht, hrest⟩ := List.cons_subset.mp hfree
    rw [List.cons_append, List.cons_append, List.isChain_cons_cons] at hchain
    refine ⟨hchain.1, ht, hmid, ?_, hchain.2⟩
    intro a ha
    have hne : a ≠ t := fun heq => hnot (heq ▸ ha)
    exact List.mem_filter.mpr ⟨hrest ha, by simpa using hne⟩
  · rintro ⟨hedge, ht, hmid, hrest, hchain⟩
    refine ⟨List.nodup_cons.mpr ⟨?_, hmid⟩, List.cons_subset.mpr ⟨ht, ?_⟩, ?_⟩
    · intro hmem
      simpa using (List.mem_filter.mp (hrest hmem)).2
    · exact fun a ha => (List.mem_filter.mp (hrest ha)).1
    · exact List.isChain_cons_cons.mpr ⟨hedge, hchain⟩

/-- Taking out a node pays for one unit of fuel. -/
theorem length_without_le {free : List α} {t : α} (ht : t ∈ free) {fuel : Nat}
    (hfuel : free.length ≤ fuel + 1) : (free.filter fun n => !(n == t)).length ≤ fuel := by
  have hlt : (free.filter fun n => !(n == t)).length < free.length :=
    List.length_filter_lt_length_iff_exists.mpr ⟨t, ht, by simp⟩
  omega

/-- Without fuel the search only looks for the way back. -/
theorem mem_closedWalks_zero {start node : α} {free path w : List α} :
    w ∈ closedWalks g start 0 free path node ↔
      g.Edge node start ∧ w = path ++ [node, start] := by
  rw [closedWalks, List.mem_flatMap]
  constructor
  · rintro ⟨t, ht, hw⟩
    split at hw
    · next heq =>
      rw [eq_of_beq heq] at ht
      exact ⟨ht, List.mem_singleton.mp hw⟩
    · exact absurd hw List.not_mem_nil
  · rintro ⟨hedge, rfl⟩
    refine ⟨start, hedge, ?_⟩
    rw [if_pos (beq_self_eq_true start)]
    exact List.mem_singleton_self _

/-- With fuel it finds the way back, or goes on to a free node. -/
theorem mem_closedWalks_succ {start node : α} {fuel : Nat} {free path w : List α}
    (hstart : start ∉ free) :
    w ∈ closedWalks g start (fuel + 1) free path node ↔
      (g.Edge node start ∧ w = path ++ [node, start]) ∨
        ∃ t ∈ free, g.Edge node t ∧
          w ∈ closedWalks g start fuel (free.filter fun n => !(n == t)) (path ++ [node]) t := by
  rw [closedWalks, List.mem_flatMap]
  constructor
  · rintro ⟨t, ht, hw⟩
    split at hw
    · next heq =>
      rw [eq_of_beq heq] at ht
      exact .inl ⟨ht, List.mem_singleton.mp hw⟩
    · split at hw
      · next hfree => exact .inr ⟨t, List.contains_iff_mem.mp hfree, ht, hw⟩
      · exact absurd hw List.not_mem_nil
  · rintro (⟨hedge, rfl⟩ | ⟨t, hfree, hedge, hw⟩)
    · refine ⟨start, hedge, ?_⟩
      rw [if_pos (beq_self_eq_true start)]
      exact List.mem_singleton_self _
    · have hne : t ≠ start := fun heq => hstart (heq ▸ hfree)
      refine ⟨t, hedge, ?_⟩
      rw [if_neg (mt eq_of_beq hne), if_pos (List.contains_iff_mem.mpr hfree)]
      exact hw

/-- The search finds the closed walks that go on from its path through free nodes. With one unit of
fuel for each free node it never stops early. -/
theorem mem_closedWalks_iff {start : α} {fuel : Nat} {free path : List α} {node : α} {w : List α}
    (hfuel : free.length ≤ fuel) (hstart : start ∉ free) :
    w ∈ closedWalks g start fuel free path node ↔
      ∃ mid, w = path ++ (node :: mid ++ [start]) ∧ g.Returns start node free mid := by
  induction fuel generalizing free path node with
  | zero =>
    -- nothing is free any more, so only the direct way back is left
    have hnil : free = [] := List.eq_nil_of_length_eq_zero (Nat.le_zero.mp hfuel)
    subst hnil
    rw [mem_closedWalks_zero]
    constructor
    · rintro ⟨hedge, rfl⟩
      exact ⟨[], rfl, returns_nil_iff.mpr hedge⟩
    · rintro ⟨mid, rfl, hmid⟩
      have hempty : mid = [] := List.subset_nil.mp hmid.free
      subst hempty
      exact ⟨returns_nil_iff.mp hmid, rfl⟩
  | succ fuel ih =>
    have hstart' : ∀ t, start ∉ free.filter fun n => !(n == t) :=
      fun t hmem => hstart (List.mem_filter.mp hmem).1
    rw [mem_closedWalks_succ hstart]
    constructor
    · rintro (⟨hedge, rfl⟩ | ⟨t, ht, hedge, hw⟩)
      · exact ⟨[], rfl, returns_nil_iff.mpr hedge⟩
      · obtain ⟨mid, rfl, hmid⟩ := (ih (length_without_le ht hfuel) (hstart' t)).mp hw
        exact ⟨t :: mid, by simp, returns_cons_iff.mpr ⟨hedge, ht, hmid⟩⟩
    · rintro ⟨mid, rfl, hmid⟩
      cases mid with
      | nil => exact .inl ⟨returns_nil_iff.mp hmid, rfl⟩
      | cons t mid =>
        obtain ⟨hedge, ht, hrest⟩ := returns_cons_iff.mp hmid
        refine .inr ⟨t, ht, hedge, ?_⟩
        exact (ih (length_without_le ht hfuel) (hstart' t)).mpr ⟨mid, by simp, hrest⟩

omit [BEq α] [LawfulBEq α] in
/-- Lists made for distinct elements are distinct if each shows its element at one place. -/
theorem flatMap_nodup_of_shown {ts : List α} (hts : ts.Nodup) {f : α → List (List α)} {n : Nat}
    (hnodup : ∀ t ∈ ts, (f t).Nodup) (hshown : ∀ t ∈ ts, ∀ w ∈ f t, w[n]? = some t) :
    (ts.flatMap f).Nodup := by
  refine List.nodup_flatMap.mpr ⟨hnodup, hts.imp_of_mem ?_⟩
  intro a b ha hb hne w hwa hwb
  have hsame : some a = some b := (hshown a ha w hwa).symm.trans (hshown b hb w hwb)
  exact hne (Option.some.inj hsame)

/-- Walks that go on through different targets differ there, so none is found twice. -/
theorem closedWalks_nodup (hg : g.Simple) {start : α} {fuel : Nat} {free path : List α} {node : α}
    (hfuel : free.length ≤ fuel) (hstart : start ∉ free) :
    (closedWalks g start fuel free path node).Nodup := by
  -- all walks of a call have the path and the node in common and show the target behind them
  induction fuel generalizing free path node with
  | zero =>
    rw [closedWalks]
    refine flatMap_nodup_of_shown (n := path.length + 1) (hg.targets_nodup node) ?_ ?_
    · intro t _
      split
      · exact List.nodup_singleton _
      · exact List.nodup_nil
    · intro t _ w hw
      split at hw
      · next heq =>
        rw [List.mem_singleton.mp hw, eq_of_beq heq]
        simp
      · exact absurd hw List.not_mem_nil
  | succ fuel ih =>
    have hless : ∀ t ∈ free, (free.filter fun n => !(n == t)).length ≤ fuel :=
      fun t ht => length_without_le ht hfuel
    have hstart' : ∀ t, start ∉ free.filter fun n => !(n == t) :=
      fun t hmem => hstart (List.mem_filter.mp hmem).1
    rw [closedWalks]
    refine flatMap_nodup_of_shown (n := path.length + 1) (hg.targets_nodup node) ?_ ?_
    · intro t _
      split
      · exact List.nodup_singleton _
      · split
        · next hfree => exact ih (hless t (List.contains_iff_mem.mp hfree)) (hstart' t)
        · exact List.nodup_nil
    · intro t _ w hw
      split at hw
      · next heq =>
        rw [List.mem_singleton.mp hw, eq_of_beq heq]
        simp
      · split at hw
        · next hfree =>
          have hmem : t ∈ free := List.contains_iff_mem.mp hfree
          obtain ⟨mid, rfl, -⟩ := (mem_closedWalks_iff (hless t hmem) (hstart' t)).mp hw
          simp
        · exact absurd hw List.not_mem_nil

/-! ### All searches -/

theorem mem_cyclesFrom_cons {start : α} {later : List α} (hnodup : (start :: later).Nodup)
    {w : List α} :
    w ∈ cyclesFrom g (start :: later) ↔
      (∃ mid, w = start :: mid ++ [start] ∧ g.Returns start start later mid) ∨
        w ∈ cyclesFrom g later := by
  rw [cyclesFrom, List.mem_append,
    mem_closedWalks_iff (Nat.le_refl _) (List.nodup_cons.mp hnodup).1]
  rfl

/-- Every cycle that is found comes from the search from one of the nodes, through the nodes behind
it. -/
theorem exists_search_of_mem_cyclesFrom {ns : List α} (hnodup : ns.Nodup) {w : List α}
    (hw : w ∈ cyclesFrom g ns) :
    ∃ before start later mid, ns = before ++ start :: later ∧ w = start :: mid ++ [start] ∧
      g.Returns start start later mid := by
  induction ns with
  | nil => exact absurd hw List.not_mem_nil
  | cons first rest ih =>
    rcases (mem_cyclesFrom_cons hnodup).mp hw with ⟨mid, rfl, hmid⟩ | hrest
    · exact ⟨[], first, rest, mid, rfl, rfl, hmid⟩
    · obtain ⟨before, start, later, mid, rfl, rfl, hmid⟩ := ih (List.nodup_cons.mp hnodup).2 hrest
      exact ⟨first :: before, start, later, mid, rfl, rfl, hmid⟩

/-- Every cycle that is found starts at one of the nodes and stays among them. -/
theorem exists_of_mem_cyclesFrom {ns : List α} (hnodup : ns.Nodup) {w : List α}
    (hw : w ∈ cyclesFrom g ns) :
    ∃ start mid, w = start :: mid ++ [start] ∧ (start :: mid).Nodup ∧ start :: mid ⊆ ns ∧
      List.IsChain g.Edge w := by
  obtain ⟨before, start, later, mid, rfl, rfl, hmid⟩ := exists_search_of_mem_cyclesFrom hnodup hw
  have hstart : start ∉ later := (List.nodup_cons.mp (List.nodup_append.mp hnodup).2.1).1
  have hsub : start :: mid ⊆ before ++ start :: later :=
    List.subset_append_of_subset_right before (List.cons_subset_cons start hmid.free)
  refine ⟨start, mid, rfl, ?_, hsub, hmid.chain⟩
  exact List.nodup_cons.mpr ⟨fun hmem => hstart (hmid.free hmem), hmid.nodup⟩

/-- The cycles through the nodes `ns` are all found. -/
theorem mem_rounds_from {ns : List α} (hnodup : ns.Nodup) {c : Cycle α} (hnil : c ≠ Cycle.nil)
    (hc : c.Nodup) (hchain : c.Chain g.Edge) (hsub : ∀ a ∈ c, a ∈ ns) :
    c ∈ (cyclesFrom g ns).map round := by
  -- the search from `start` finds the cycles through it, and later searches find the others
  induction ns with
  | nil =>
    obtain ⟨a, ha⟩ := exists_mem_of_ne_nil hnil
    exact absurd (hsub a ha) List.not_mem_nil
  | cons start later ih =>
    by_cases hmem : start ∈ c
    · obtain ⟨mid, rfl⟩ := exists_reading hmem
      have hsimple := List.nodup_cons.mp (Cycle.nodup_coe_iff.mp hc)
      have hfree : mid ⊆ later := by
        intro a ha
        have hns := hsub a (Cycle.mem_coe_iff.mpr (List.mem_cons_of_mem start ha))
        rcases List.mem_cons.mp hns with rfl | hlater
        · exact absurd ha hsimple.1
        · exact hlater
      refine List.mem_map.mpr ⟨start :: mid ++ [start], ?_, round_closed start mid⟩
      exact (mem_cyclesFrom_cons hnodup).mpr (Or.inl ⟨mid, rfl, hsimple.2, hfree, hchain⟩)
    · have hlater : ∀ a ∈ c, a ∈ later := by
        intro a ha
        rcases List.mem_cons.mp (hsub a ha) with rfl | h
        · exact absurd ha hmem
        · exact h
      obtain ⟨w, hw, hround⟩ := List.mem_map.mp (ih (List.nodup_cons.mp hnodup).2 hlater)
      exact List.mem_map.mpr ⟨w, (mem_cyclesFrom_cons hnodup).mpr (Or.inr hw), hround⟩

omit [LawfulBEq α] in
/-- A cycle that follows links passes through nodes of the graph only. -/
theorem mem_nodes_of_chain {c : Cycle α} (hchain : c.Chain g.Link) {a : α} (ha : a ∈ c) :
    a ∈ g.nodes := by
  obtain ⟨mid, rfl⟩ := exists_reading ha
  rw [Cycle.chain_coe_cons] at hchain
  cases mid with
  | nil => exact (List.isChain_pair.mp hchain).2.1
  | cons b mid => exact (List.isChain_cons_cons.mp hchain).1.2.1

/-- **Every elementary cycle is found.** A cycle is found exactly if it repeats no node and follows
the links of the graph. -/
theorem mem_rounds_iff (hg : g.Simple) {c : Cycle α} :
    c ∈ g.rounds ↔ c ≠ Cycle.nil ∧ c.Nodup ∧ c.Chain g.Link := by
  constructor
  · intro hc
    obtain ⟨w, hw, rfl⟩ := List.mem_map.mp hc
    obtain ⟨start, mid, rfl, hsimple, hsub, hchain⟩ := exists_of_mem_cyclesFrom hg.nodes hw
    have hmem : ∀ a ∈ start :: mid ++ [start], a ∈ g.nodes := by
      intro a ha
      rcases List.mem_append.mp ha with h | h
      · exact hsub h
      · exact hsub (List.mem_singleton.mp h ▸ List.mem_cons_self)
    rw [round_closed]
    refine ⟨?_, Cycle.nodup_coe_iff.mpr hsimple, ?_⟩
    · exact fun h => absurd ((Cycle.coe_eq_nil _).mp h) (List.cons_ne_nil start mid)
    · exact hchain.imp_of_mem_imp fun a b ha hb hab => ⟨hab, hmem a ha, hmem b hb⟩
  · rintro ⟨hnil, hnodup, hchain⟩
    exact mem_rounds_from hg.nodes hnil hnodup (hchain.imp fun _ _ h => h.1)
      fun a ha => mem_nodes_of_chain hchain ha

/-- The cycles from one node differ by their readings from that node, and later ones do not pass
through it. -/
theorem rounds_from_nodup (hg : g.Simple) {ns : List α} (hnodup : ns.Nodup) :
    ((cyclesFrom g ns).map round).Nodup := by
  induction ns with
  | nil => exact List.nodup_nil
  | cons start later ih =>
    obtain ⟨hstart, hlater⟩ := List.nodup_cons.mp hnodup
    have hspec : ∀ w ∈ closedWalks g start later.length later [] start,
        ∃ mid, w = start :: mid ++ [start] ∧ g.Returns start start later mid :=
      fun w hw => (mem_closedWalks_iff (Nat.le_refl _) hstart).mp hw
    rw [cyclesFrom, List.map_append]
    -- walks of one search have the same first node, and those of a later one avoid it
    refine List.nodup_append.mpr ⟨?_, ih hlater, ?_⟩
    · refine List.Nodup.map_on ?_ (closedWalks_nodup hg (Nat.le_refl _) hstart)
      intro w hw w' hw' heq
      obtain ⟨mid, rfl, hmid⟩ := hspec w hw
      obtain ⟨mid', rfl, -⟩ := hspec w' hw'
      rw [round_closed, round_closed] at heq
      have hsimple : (start :: mid).Nodup :=
        List.nodup_cons.mpr ⟨fun hmem => hstart (hmid.free hmem), hmid.nodup⟩
      rw [reading_unique hsimple heq]
    · intro c hc c' hc' heq
      obtain ⟨w, hw, rfl⟩ := List.mem_map.mp hc
      obtain ⟨w', hw', rfl⟩ := List.mem_map.mp hc'
      obtain ⟨mid, rfl, -⟩ := hspec w hw
      obtain ⟨start', mid', rfl, -, hsub, -⟩ := exists_of_mem_cyclesFrom hlater hw'
      rw [round_closed, round_closed] at heq
      have hmem : start ∈ ((start' :: mid' : List α) : Cycle α) := by
        rw [← heq]
        exact Cycle.mem_coe_iff.mpr List.mem_cons_self
      exact hstart (hsub (Cycle.mem_coe_iff.mp hmem))

/-- No cycle is found twice, also not in another rotation. -/
theorem rounds_nodup (hg : g.Simple) : g.rounds.Nodup :=
  rounds_from_nodup hg hg.nodes

/-- **The order does not matter.** Graphs with the same links have the same cycles, each equally
often. -/
theorem rounds_perm {g g' : Graph α} (hg : g.Simple) (hg' : g'.Simple)
    (hlinks : ∀ a b, g.Link a b ↔ g'.Link a b) : g.rounds.Perm g'.rounds := by
  refine (List.perm_ext_iff_of_nodup (rounds_nodup hg) (rounds_nodup hg')).mpr ?_
  intro c
  have hlink : g.Link = g'.Link := by
    funext a b
    exact propext (hlinks a b)
  rw [mem_rounds_iff hg, mem_rounds_iff hg', hlink]

/-! ### Ranks -/

/-- How many nodes can be reached along links. -/
noncomputable def reach (g : Graph α) (a : α) : Nat :=
  Set.ncard {b | Relation.TransGen g.Link a b}

omit [LawfulBEq α] in
theorem reachable_finite (a : α) : Set.Finite {b | Relation.TransGen g.Link a b} := by
  refine (List.finite_toSet g.nodes).subset ?_
  intro b hb
  obtain ⟨c, -, hlink⟩ := Relation.TransGen.tail'_iff.mp hb
  exact hlink.2.2

omit [LawfulBEq α] in
/-- Along a link fewer nodes can be reached, unless it is part of a closed walk. -/
theorem reach_lt (hopen : ∀ a, ¬ Relation.TransGen g.Link a a) {a b : α} (hab : g.Link a b) :
    g.reach b < g.reach a := by
  refine Set.ncard_lt_ncard ⟨?_, ?_⟩ (reachable_finite a)
  · intro c hc
    exact Relation.TransGen.head hab hc
  · intro hsub
    exact hopen b (hsub (Relation.TransGen.single hab))

/-- **Cycles and ranks.** No cycle is found exactly if the nodes can be ranked so that every link
leads to a smaller rank. -/
theorem cycles_eq_nil_iff (hg : g.Simple) :
    g.cycles = [] ↔ ∃ rank : α → Int, ∀ a b, g.Link a b → rank b < rank a := by
  constructor
  · intro hnone
    -- a way from a node back to itself would contain a cycle, and that would be found
    have hopen : ∀ a, ¬ Relation.TransGen g.Link a a := by
      intro a ha
      obtain ⟨mid, hmid⟩ := exists_chain_of_transGen ha
      have hfound := (mem_rounds_iff hg).mpr (exists_elementary hmid).choose_spec
      rw [rounds, hnone] at hfound
      exact List.not_mem_nil hfound
    refine ⟨fun a => g.reach a, fun a b hab => ?_⟩
    exact Int.ofNat_lt.mpr (reach_lt hopen hab)
  · rintro ⟨rank, hrank⟩
    refine List.eq_nil_iff_forall_not_mem.mpr fun w hw => ?_
    obtain ⟨hnil, -, hchain⟩ := (mem_rounds_iff hg).mp (List.mem_map_of_mem hw)
    -- the ranks would descend all the way round
    have hdescends : Cycle.Chain (fun a b => rank b < rank a) (round w) := hchain.imp hrank
    have htrans : IsTrans α fun a b => rank b < rank a := ⟨fun a b c hab hbc => hbc.trans hab⟩
    have hirrefl : Std.Irrefl fun a b => rank b < rank a := ⟨fun a => lt_irrefl (rank a)⟩
    exact hnil hdescends.eq_nil_of_irrefl

end SchemaAudit.Graph
