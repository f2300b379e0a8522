import SchemaAudit.Proofs.Graph.Cycles

/-!
# A node to which nothing leads

A graph takes another node at its end, to which none of its edges leads. Whatever the targets of
the new node are, it is on no cycle, and the search finds the same cycles in the same order.

- `closedWalks_concat`: a search that starts elsewhere never comes to the new node.
- `cycles_concat`: all searches together find what they found without it.
- `mem_of_mem_ofEntries`: a graph made of entries holds nothing but these entries.
-/

namespace SchemaAudit.Graph

variable {α : Type} [BEq α] [LawfulBEq α] {g : Graph α} {new : α} {ts : List α}

/-! ### Entries -/

theorem mem_put {node : α} {e : α × List α} (h : e ∈ g.put node ts) : e = (node, ts) ∨ e ∈ g := by
  induction g with
  | nil => exact .inl (List.mem_singleton.mp h)
  | cons f g ih =>
    rw [put] at h
    split at h
    · next heq =>
      rcases List.mem_cons.mp h with rfl | h
      · exact .inl (by rw [eq_of_beq heq])
      · exact .inr (List.mem_cons_of_mem _ h)
    · rcases List.mem_cons.mp h with rfl | h
      · exact .inr List.mem_cons_self
      · rcases ih h with heq | h
        · exact .inl heq
        · exact .inr (List.mem_cons_of_mem _ h)

omit [LawfulBEq α] in
theorem ofEntries_concat (es : List (α × List α)) (e : α × List α) :
    ofEntries (es ++ [e]) = (ofEntries es).put e.1 e.2 := by
  rw [ofEntries, List.foldl_append]
  rfl

/-- Every entry of a graph was added to it, also where a node was added several times. -/
theorem mem_of_mem_ofEntries {es : List (α × List α)} {e : α × List α} (h : e ∈ ofEntries es) :
    e ∈ es := by
  induction es using List.reverseRecOn with
  | nil => exact h
  | append_singleton es f ih =>
    rw [ofEntries_concat] at h
    rcases mem_put h with rfl | h
    · exact List.mem_append_right es (List.mem_singleton_self _)
    · exact List.mem_append_left [f] (ih h)

/-! ### Searches -/

/-- A node has the same targets as without the new one. -/
theorem targets_concat {a : α} (h : a ≠ new) : targets (g ++ [(new, ts)]) a = g.targets a := by
  have hlast : List.lookup a [(new, ts)] = none := by
    rw [List.lookup_cons, beq_eq_false_iff_ne.mpr h]
    rfl
  rw [targets, targets, List.lookup_append, hlast, Option.or_none]

theorem targets_concat_self (hnew : new ∉ g.nodes) : targets (g ++ [(new, ts)]) new = ts := by
  have hnone : g.lookup new = none := by
    refine List.lookup_eq_none_iff.mpr fun e he => bne_iff_ne.mpr fun heq => ?_
    exact hnew (List.mem_map.mpr ⟨e, he, heq.symm⟩)
  rw [targets, List.lookup_append, hnone, Option.none_or, List.lookup_cons, beq_self_eq_true]
  rfl

/-- A search from another node goes on as before: the new node is free, but no edge leads to it, and
the unit of fuel for it is never used. -/
theorem closedWalks_concat (hin : ∀ a, ¬ g.Edge a new) {start : α} {fuel : Nat}
    {free path : List α} {node : α} (hfuel : free.length ≤ fuel) (hnode : node ≠ new) :
    closedWalks (g ++ [(new, ts)]) start (fuel + 1) (free ++ [new]) path node =
      closedWalks g start fuel free path node := by
  have hother : ∀ {a t : α}, t ∈ g.targets a → t ≠ new := fun ht heq => hin _ (heq ▸ ht)
  have hfree : ∀ {t : α} (free : List α), t ≠ new →
      (free ++ [new]).contains t = free.contains t := by
    intro t free hne
    simp [hne]
  induction fuel generalizing free path node with
  | zero =>
    obtain rfl : free = [] := List.eq_nil_of_length_eq_zero (Nat.le_zero.mp hfuel)
    rw [closedWalks, closedWalks, targets_concat hnode]
    refine List.flatMap_congr fun t ht => ?_
    rw [hfree [] (hother ht)]
    rfl
  | succ fuel ih =>
    rw [closedWalks, closedWalks, targets_concat hnode]
    refine List.flatMap_congr fun t ht => ?_
    rw [hfree free (hother ht)]
    by_cases hcontains : free.contains t = true
    · have hstill : ([new].filter fun n => !(n == t)) = [new] := by
        simp [Ne.symm (hother ht)]
      rw [List.filter_append, hstill,
        ih (length_without_le (List.contains_iff_mem.mp hcontains) hfuel) (hother ht)]
    · rw [if_neg hcontains, if_neg hcontains]

/-- The searches from the old nodes find the same, and the new node comes last. -/
theorem cyclesFrom_concat (hin : ∀ a, ¬ g.Edge a new) {nodes : List α} (hnodes : new ∉ nodes) :
    cyclesFrom (g ++ [(new, ts)]) (nodes ++ [new]) =
      cyclesFrom g nodes ++ closedWalks (g ++ [(new, ts)]) new 0 [] [] new := by
  induction nodes with
  | nil => simp [cyclesFrom]
  | cons node nodes ih =>
    rw [List.mem_cons, not_or] at hnodes
    rw [List.cons_append, cyclesFrom, cyclesFrom, ih hnodes.2, List.length_append,
      List.length_singleton, closedWalks_concat hin (Nat.le_refl _) (Ne.symm hnodes.1),
      List.append_assoc]

/-- **A node to which nothing leads is on no cycle.** -/
theorem cycles_concat (hnew : new ∉ g.nodes) (hin : ∀ a, ¬ g.Edge a new) (hself : new ∉ ts) :
    cycles (g ++ [(new, ts)]) = g.cycles := by
  have hlast : closedWalks (g ++ [(new, ts)]) new 0 [] [] new = [] := by
    rw [closedWalks, targets_concat_self hnew]
    refine List.flatMap_eq_nil_iff.mpr fun t ht => ?_
    have hne : (t == new) = false := beq_eq_false_iff_ne.mpr fun heq => hself (heq ▸ ht)
    rw [hne]
    rfl
  have hnodes : nodes (g ++ [(new, ts)]) = g.nodes ++ [new] := by
    rw [nodes, List.map_append]
    rfl
  rw [cycles, cycles, hnodes, cyclesFrom_concat hin hnew, hlast, List.append_nil]

/-! ### Where a cycle starts -/

omit [LawfulBEq α] in
/-- The walks of a search begin with its path and its node. -/
theorem prefix_of_mem_closedWalks {start : α} {fuel : Nat} {free path w : List α} {node : α}
    (h : w ∈ closedWalks g start fuel free path node) : path ++ [node] <+: w := by
  have hclosed : ∀ (path : List α) (node : α), path ++ [node] <+: path ++ [node, start] :=
    fun path node => ⟨[start], by simp⟩
  induction fuel generalizing free path node with
  | zero =>
    rw [closedWalks, List.mem_flatMap] at h
    obtain ⟨t, -, hw⟩ := h
    split at hw
    · exact List.mem_singleton.mp hw ▸ hclosed path node
    · exact absurd hw List.not_mem_nil
  | succ fuel ih =>
    rw [closedWalks, List.mem_flatMap] at h
    obtain ⟨t, -, hw⟩ := h
    split at hw
    · exact List.mem_singleton.mp hw ▸ hclosed path node
    · split at hw
      · have hlonger : path ++ [node] ++ [t] <+: w := ih hw
        exact (List.prefix_append _ _).trans hlonger
      · exact absurd hw List.not_mem_nil

omit [LawfulBEq α] in
/-- A cycle starts at one of the nodes that the searches start from. -/
theorem head_mem_of_mem_cyclesFrom {nodes w : List α} (h : w ∈ cyclesFrom g nodes) :
    ∃ start ∈ nodes, w.head? = some start := by
  induction nodes with
  | nil => exact absurd h List.not_mem_nil
  | cons node nodes ih =>
    rw [cyclesFrom, List.mem_append] at h
    rcases h with h | h
    · obtain ⟨rest, rfl⟩ := prefix_of_mem_closedWalks h
      exact ⟨node, List.mem_cons_self, rfl⟩
    · obtain ⟨start, hstart, hhead⟩ := ih h
      exact ⟨start, List.mem_cons_of_mem node hstart, hhead⟩

end SchemaAudit.Graph
