import SchemaAudit.Proofs.Graph.Extension

/-!
# The list of cycles, exactly

`Proofs/Graph/Cycles` compares the cycles that are found up to rotation. Here is said which lists
are returned. A cycle can be read from each of its nodes; it is returned read from the one that comes
first in the order of the graph, since a search passes only through nodes behind its start. The
searches follow that order too, so the cycles are returned in the order of their first nodes.

- `Elementary`: a closed walk that stays in the graph and repeats no node in between.
- `Enumerates`: a list of walks holds every elementary cycle once, read from its earliest node, and
  in the order of these nodes.
- `cycles_enumerates`: this is what `Graph.cycles` returns.
-/

namespace SchemaAudit.Graph

variable {α : Type} [BEq α] {g : Graph α}

/-- The place of a node in the order of the graph. -/
def position (g : Graph α) (a : α) : Nat :=
  g.nodes.idxOf a

/-- From `start` through `mid` back to `start`: the walk follows edges, stays inside the graph and
repeats no node in between. -/
structure Elementary (g : Graph α) (start : α) (mid : List α) : Prop where
  nodup : (start :: mid).Nodup
  inside : ∀ a ∈ start :: mid, a ∈ g.nodes
  chain : List.IsChain g.Edge (start :: mid ++ [start])

/-- Of the nodes of a cycle, `start` comes first in the order of the graph. -/
def StartsEarliest (g : Graph α) (start : α) (mid : List α) : Prop :=
  ∀ a ∈ mid, g.position start < g.position a

/-- The walks are the elementary cycles of the graph. -/
structure Enumerates (g : Graph α) (ws : List (List α)) : Prop where
  /-- Every walk is an elementary cycle and starts at its earliest node. -/
  sound : ∀ w ∈ ws, ∃ start mid, w = start :: mid ++ [start] ∧ g.Elementary start mid ∧
    g.StartsEarliest start mid
  /-- Every elementary cycle is there, rotated to start at its earliest node. -/
  complete : ∀ a rest, g.Elementary a rest → ∃ start mid, (a :: rest).IsRotated (start :: mid) ∧
    g.StartsEarliest start mid ∧ start :: mid ++ [start] ∈ ws
  /-- No cycle is there twice, also not in another rotation. -/
  once : (ws.map round).Nodup
  /-- The walks stand in the order of their first nodes. -/
  ordered : ws.Pairwise fun v w =>
    ∀ a ∈ v.head?, ∀ b ∈ w.head?, g.position a ≤ g.position b

/-! ### Where a cycle is read from -/

variable [LawfulBEq α]

/-- In a list without repetition, what stands behind an element has a later place. -/
theorem idxOf_lt_idxOf {before later : List α} {start a : α}
    (hnodup : (before ++ start :: later).Nodup) (ha : a ∈ later) :
    (before ++ start :: later).idxOf start < (before ++ start :: later).idxOf a := by
  obtain ⟨-, hback, hapart⟩ := List.nodup_append.mp hnodup
  have hstart : start ∉ before := fun h => hapart start h start List.mem_cons_self rfl
  have hbefore : a ∉ before := fun h => hapart a h a (List.mem_cons_of_mem start ha) rfl
  have hne : start ≠ a := fun h => (List.nodup_cons.mp hback).1 (h ▸ ha)
  rw [List.idxOf_append_of_notMem hstart, List.idxOf_append_of_notMem hbefore,
    List.idxOf_cons_self, List.idxOf_cons_ne later hne]
  omega

/-- Every cycle that is returned is elementary and read from its earliest node. -/
theorem elementary_of_mem_cycles (hg : g.Simple) {w : List α} (hw : w ∈ g.cycles) :
    ∃ start mid, w = start :: mid ++ [start] ∧ g.Elementary start mid ∧
      g.StartsEarliest start mid := by
  have hnodup := hg.nodes
  obtain ⟨before, start, later, mid, hnodes, rfl, hmid⟩ :=
    exists_search_of_mem_cyclesFrom hnodup hw
  have hearliest : g.StartsEarliest start mid := by
    intro a ha
    rw [hnodes] at hnodup
    rw [position, position, hnodes]
    exact idxOf_lt_idxOf hnodup (hmid.free ha)
  refine ⟨start, mid, rfl, ⟨?_, ?_, hmid.chain⟩, hearliest⟩
  · -- a node does not stand behind itself
    have hstart : start ∉ mid := fun hmem => Nat.lt_irrefl _ (hearliest start hmem)
    exact List.nodup_cons.mpr ⟨hstart, hmid.nodup⟩
  · intro a ha
    rw [hnodes]
    exact List.mem_append_right before (List.cons_subset_cons start hmid.free ha)

omit [LawfulBEq α] in
/-- Inside the graph, the edges of an elementary cycle are links. -/
theorem Elementary.chain_link {start : α} {mid : List α} (h : g.Elementary start mid) :
    Cycle.Chain g.Link ((start :: mid : List α) : Cycle α) := by
  have hinside : ∀ a ∈ start :: mid ++ [start], a ∈ g.nodes := by
    intro a ha
    rcases List.mem_append.mp ha with hmem | hmem
    · exact h.inside a hmem
    · exact h.inside a (List.mem_singleton.mp hmem ▸ List.mem_cons_self)
  rw [Cycle.chain_coe_cons]
  exact h.chain.imp_of_mem_imp fun a b ha hb hab => ⟨hab, hinside a ha, hinside b hb⟩

/-- Every elementary cycle is returned, in the rotation that starts at its earliest node. -/
theorem exists_rotation_mem_cycles (hg : g.Simple) {a : α} {rest : List α}
    (h : g.Elementary a rest) :
    ∃ start mid, (a :: rest).IsRotated (start :: mid) ∧ g.StartsEarliest start mid ∧
      start :: mid ++ [start] ∈ g.cycles := by
  have hne : ((a :: rest : List α) : Cycle α) ≠ Cycle.nil :=
    fun hnil => absurd ((Cycle.coe_eq_nil _).mp hnil) (List.cons_ne_nil a rest)
  have hfound : ((a :: rest : List α) : Cycle α) ∈ g.rounds :=
    (mem_rounds_iff hg).mpr ⟨hne, Cycle.nodup_coe_iff.mpr h.nodup, h.chain_link⟩
  obtain ⟨w, hw, hround⟩ := List.mem_map.mp hfound
  obtain ⟨start, mid, rfl, -, hearliest⟩ := elementary_of_mem_cycles hg hw
  rw [round_closed] at hround
  exact ⟨start, mid, Cycle.coe_eq_coe.mp hround.symm, hearliest, hw⟩

/-! ### The order of the cycles -/

/-- The searches follow the order of their nodes: the cycles of the first search start at the first
node, and those of the later ones at nodes behind it. -/
theorem cyclesFrom_ordered {ns : List α} (hnodup : ns.Nodup) :
    (cyclesFrom g ns).Pairwise fun v w =>
      ∀ a ∈ v.head?, ∀ b ∈ w.head?, ns.idxOf a ≤ ns.idxOf b := by
  induction ns with
  | nil => exact List.Pairwise.nil
  | cons start later ih =>
    obtain ⟨hstart, hlater⟩ := List.nodup_cons.mp hnodup
    have hfirst : ∀ v ∈ closedWalks g start later.length later [] start,
        ∀ a ∈ v.head?, (start :: later).idxOf a = 0 := by
      intro v hv a ha
      obtain ⟨rest, rfl⟩ := prefix_of_mem_closedWalks hv
      obtain rfl : start = a := Option.some.inj ha
      exact List.idxOf_cons_self
    have hbehind : ∀ v ∈ cyclesFrom g later, ∀ a ∈ v.head?,
        (start :: later).idxOf a = later.idxOf a + 1 := by
      intro v hv a ha
      obtain ⟨b, hb, hhead⟩ := head_mem_of_mem_cyclesFrom hv
      obtain rfl : b = a := Option.some.inj (hhead.symm.trans ha)
      exact List.idxOf_cons_ne later fun h => hstart (h ▸ hb)
    rw [cyclesFrom]
    refine List.pairwise_append.mpr ⟨?_, ?_, ?_⟩
    · refine List.pairwise_of_forall_mem_list fun v hv w _ a ha b _ => ?_
      rw [hfirst v hv a ha]
      exact Nat.zero_le _
    · -- the places of all later nodes move by one
      refine (ih hlater).imp_of_mem fun {v w} hv hw hvw a ha b hb => ?_
      have hle := hvw a ha b hb
      rw [hbehind v hv a ha, hbehind w hw b hb]
      omega
    · intro v hv w _ a ha b _
      rw [hfirst v hv a ha]
      exact Nat.zero_le _

/-- **The cycles, exactly.** For a graph whose nodes and targets are listed without repetition, the
elementary cycles are returned, each once and from its earliest node, in the order of these nodes.
-/
theorem cycles_enumerates (hg : g.Simple) : g.Enumerates g.cycles where
  sound _ hw := elementary_of_mem_cycles hg hw
  complete _ _ h := exists_rotation_mem_cycles hg h
  once := rounds_nodup hg
  ordered := cyclesFrom_ordered hg.nodes

/-- Crossings of one-way roads, some of them in both directions. One road leads out of town, and one
back to where it starts. -/
def crossings : Graph String :=
  [("mill", ["station", "bridge", "abroad"]), ("bridge", ["mill", "bridge", "station"]),
    ("station", ["bridge", "mill"])]

/-- Cycles that share nodes are told apart, and the order of the targets shows in that of the
cycles from one node. -/
theorem crossings_enumerates :
    crossings.Simple ∧ crossings.Enumerates crossings.cycles ∧
      crossings.cycles =
        [["mill", "station", "bridge", "mill"], ["mill", "station", "mill"],
          ["mill", "bridge", "mill"], ["mill", "bridge", "station", "mill"],
          ["bridge", "bridge"], ["bridge", "station", "bridge"]] := by
  have hsimple : crossings.Simple := ⟨by decide, by decide⟩
  exact ⟨hsimple, cycles_enumerates hsimple, by decide +kernel⟩

end SchemaAudit.Graph
