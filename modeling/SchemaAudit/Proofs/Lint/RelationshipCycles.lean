import SchemaAudit.Lint.Rule
import SchemaAudit.Proofs.Graph.Cycles
import SchemaAudit.Proofs.Keyed
import SchemaAudit.Proofs.Results

/-!
# Cycles of foreign key relationships

The rule about cycles reports the elementary cycles of the graph in which every table leads to the
other tables that it references. The main statement says what its silence means, and that what it
reports does not depend on how the tables and their foreign keys are listed.

- `References`: a foreign key leads from one table to a different one of the tables.
- `SameReferences`: the same tables with the same foreign keys, listed in another way.
- `Rule.Tells`: a message spells out a cycle, with the text of `Lint.cycleText`.
-/

namespace SchemaAudit

/-- A foreign key leads from the table `t` to a different table `u`. -/
def Table.References (t u : Table) : Prop :=
  u ≠ t ∧ ∃ k ∈ t.parentKeys, k.parentTable = u.name

/-- `u` has the name of `t` and the same foreign keys, in any order and with any repetitions. -/
structure Table.SameParentKeys (t u : Table) : Prop where
  name : u.name = t.name
  parentKeys : ∀ k, k ∈ u.parentKeys ↔ k ∈ t.parentKeys

/-- The tables `us` are the tables `ts` in any order, each with the same foreign keys. -/
def SameReferences (ts us : List Table) : Prop :=
  ∃ ms, ts.Perm ms ∧ List.Forall₂ Table.SameParentKeys ms us

theorem SameReferences.symm {ts us : List Table} (h : SameReferences ts us) :
    SameReferences us ts := by
  obtain ⟨ms, hperm, hsame⟩ := h
  obtain ⟨xs, hxs, hus⟩ := List.perm_comp_forall₂ hperm hsame
  -- the order is exchanged before the foreign keys here, and after them the other way round
  refine ⟨xs, hus.symm, List.Forall₂.flip (hxs.imp ?_)⟩
  exact fun t u htu => ⟨htu.name.symm, fun k => (htu.parentKeys k).symm⟩

theorem SameReferences.names {ts us : List Table} (h : SameReferences ts us) :
    (ts.map (·.name)).Perm (us.map (·.name)) := by
  obtain ⟨ms, hperm, hsame⟩ := h
  have hpairs : List.Forall₂ (· = ·) (ms.map (·.name)) (us.map (·.name)) := by
    rw [List.forall₂_map_left_iff, List.forall₂_map_right_iff]
    exact hsame.imp fun t u htu => htu.name.symm
  rw [List.forall₂_eq_eq_eq] at hpairs
  exact hpairs ▸ hperm.map _

theorem SameReferences.exists_mem {ts us : List Table} (h : SameReferences ts us) {t : Table}
    (ht : t ∈ ts) : ∃ u ∈ us, t.SameParentKeys u := by
  obtain ⟨ms, hperm, hsame⟩ := h
  exact exists_partner hsame t (hperm.mem_iff.mp ht)

namespace Lint

/-- The names of tables, each one behind an arrow. -/
def arrows : List Identifier → String
  | [] => ""
  | name :: names => " -> " ++ name.text ++ arrows names

/-- What is said of the table at which a cycle starts that goes through the tables `mid`: all the
names on the way round, to the name of the first table again. -/
def cycleText (start : Identifier) (mid : List Identifier) : String :=
  "The table " ++ start.text ++ " is part of a cycle of foreign key relationships: " ++
    start.text ++ arrows mid ++ " -> " ++ start.text ++
    ". Consider removing one of the relationships."

end Lint

/-- A message of the rule tells the cycle `c`: it is about one of its tables, and shows the way from
this table round to it again. -/
def Rule.Tells (r : Rule) (m : Message) (c : Cycle Identifier) : Prop :=
  ∃ start mid, c = (start :: mid : List Identifier) ∧ m = r.say start (Lint.cycleText start mid)

namespace Lint

/-! ### The graph of the references -/

theorem mem_referencedTables_iff {t : Table} {n : Identifier} :
    n ∈ referencedTables t ↔ n ≠ t.name ∧ ∃ k ∈ t.parentKeys, k.parentTable = n := by
  rw [referencedTables, Text.mem_distinct, List.mem_filter, List.mem_map, bne_iff_ne, and_comm]

section Names

variable {ts : List Table} (hnames : (ts.map (·.name)).Nodup)
include hnames

/-- Tables with distinct names are the nodes as they stand. -/
theorem referenceGraph_eq : referenceGraph ts = ts.map fun t => (t.name, referencedTables t) := by
  refine Graph.ofEntries_eq ?_
  rw [List.map_map]
  exact hnames

theorem referenceGraph_simple : (referenceGraph ts).Simple := by
  rw [referenceGraph_eq hnames]
  refine ⟨?_, ?_⟩
  · rw [Graph.nodes, List.map_map]
    exact hnames
  · intro e he
    obtain ⟨t, -, rfl⟩ := List.mem_map.mp he
    exact Text.distinct_nodup _

/-- The links are the references between different tables. Self references and references to
tables that are not given make no link. -/
theorem referenceGraph_link_iff {a b : Identifier} :
    (referenceGraph ts).Link a b ↔
      ∃ t ∈ ts, ∃ u ∈ ts, t.name = a ∧ u.name = b ∧ t.References u := by
  have hsimple := referenceGraph_simple hnames
  have hnodes : ∀ n, n ∈ (referenceGraph ts).nodes ↔ ∃ t ∈ ts, t.name = n := by
    intro n
    rw [referenceGraph_eq hnames, Graph.nodes, List.map_map]
    exact List.mem_map
  rw [Graph.Link, Graph.edge_iff hsimple.nodes, hnodes, hnodes, referenceGraph_eq hnames]
  constructor
  · rintro ⟨⟨e, he, rfl, hb⟩, -, u, hu, rfl⟩
    obtain ⟨t, ht, rfl⟩ := List.mem_map.mp he
    obtain ⟨hne, hkey⟩ := mem_referencedTables_iff.mp hb
    exact ⟨t, ht, u, hu, rfl, rfl, fun heq => hne (heq ▸ rfl), hkey⟩
  · rintro ⟨t, ht, u, hu, rfl, rfl, hne, hkey⟩
    have hother : u.name ≠ t.name := fun heq => hne (eq_of_key_eq hnames hu ht heq)
    refine ⟨⟨_, List.mem_map_of_mem ht, rfl, ?_⟩, ⟨t, ht, rfl⟩, ⟨u, hu, rfl⟩⟩
    exact mem_referencedTables_iff.mpr ⟨hother, hkey⟩

/-- The tables can be ranked instead of their names. -/
theorem exists_rank_iff :
    (∃ rank : Identifier → Int, ∀ a b, (referenceGraph ts).Link a b → rank b < rank a) ↔
      ∃ rank : Table → Int, ∀ t ∈ ts, ∀ u ∈ ts, t.References u → rank u < rank t := by
  constructor
  · rintro ⟨rank, hrank⟩
    refine ⟨fun t => rank t.name, fun t ht u hu href => hrank t.name u.name ?_⟩
    exact (referenceGraph_link_iff hnames).mpr ⟨t, ht, u, hu, rfl, rfl, href⟩
  · rintro ⟨rank, hrank⟩
    -- a name has the rank of its table
    have hfind : ∀ t ∈ ts, ts.find? (·.name == t.name) = some t :=
      fun t ht => (find?_key_eq_some_iff hnames).mpr ⟨ht, rfl⟩
    refine ⟨fun n => ((ts.find? (·.name == n)).map rank).getD 0, ?_⟩
    intro a b hlink
    obtain ⟨t, ht, u, hu, rfl, rfl, href⟩ := (referenceGraph_link_iff hnames).mp hlink
    simp only [hfind t ht, hfind u hu]
    exact hrank t ht u hu href

/-- The links do not depend on how the tables and their foreign keys are listed. -/
theorem link_of_sameReferences {us : List Table} (h : SameReferences ts us) {a b : Identifier}
    (hlink : (referenceGraph ts).Link a b) : (referenceGraph us).Link a b := by
  have hnames' : (us.map (·.name)).Nodup := h.names.nodup_iff.mp hnames
  obtain ⟨t, ht, u, hu, rfl, rfl, hne, k, hk, hku⟩ := (referenceGraph_link_iff hnames).mp hlink
  obtain ⟨t', ht', htt'⟩ := h.exists_mem ht
  obtain ⟨u', hu', huu'⟩ := h.exists_mem hu
  refine (referenceGraph_link_iff hnames').mpr
    ⟨t', ht', u', hu', htt'.name, huu'.name, ?_, k, ?_, ?_⟩
  · intro heq
    have hname : u.name = t.name := by rw [← huu'.name, heq, htt'.name]
    exact hne (eq_of_key_eq hnames hu ht hname)
  · exact (htt'.parentKeys k).mpr hk
  · rw [hku, huu'.name]

/-- The same cycles are found, also not more often, however the tables are listed. -/
theorem rounds_perm_of_sameReferences {us : List Table} (h : SameReferences ts us) :
    (referenceGraph ts).rounds.Perm (referenceGraph us).rounds := by
  have hnames' : (us.map (·.name)).Nodup := h.names.nodup_iff.mp hnames
  refine Graph.rounds_perm (referenceGraph_simple hnames) (referenceGraph_simple hnames') ?_
  intro a b
  exact ⟨link_of_sameReferences hnames h, link_of_sameReferences hnames' h.symm⟩

end Names

/-! ### What is reported -/

/-- The names of a list, joined by arrows. -/
theorem intercalate_arrows (start : Identifier) :
    ∀ names : List Identifier,
      String.intercalate " -> " ((start :: names).map (·.text)) = start.text ++ arrows names := by
  intro names
  induction names generalizing start with
  | nil => exact String.append_empty.symm
  | cons name names ih =>
    rw [arrows, List.map_cons, List.map_cons, String.intercalate_cons_cons, ← List.map_cons, ih]
    simp only [String.append_assoc]

theorem arrows_append (names others : List Identifier) :
    arrows (names ++ others) = arrows names ++ arrows others := by
  induction names with
  | nil => exact String.empty_append.symm
  | cons name names ih =>
    rw [List.cons_append, arrows, arrows, ih]
    simp only [String.append_assoc]

/-- A closed walk is described by the names of its tables. -/
theorem describeCycle_closed (start : Identifier) (mid : List Identifier) :
    describeCycle start (start :: mid ++ [start]) = cycleText start mid := by
  have hwalk : String.intercalate " -> " ((start :: mid ++ [start]).map (·.text)) =
      start.text ++ (arrows mid ++ " -> " ++ start.text) := by
    rw [List.cons_append, intercalate_arrows, arrows_append, arrows, arrows, String.append_empty,
      String.append_assoc]
  unfold describeCycle cycleText
  simp only [hwalk, toString, String.append_assoc]

/-- A finding is made of every closed walk, and the message about it tells the walk. -/
theorem tells_of_closed (r : Rule) {ws : List (List Identifier)}
    (hclosed : ∀ w ∈ ws, ∃ start mid, w = start :: mid ++ [start]) :
    List.Forall₂ r.Tells
      ((ws.filterMap fun w =>
        w.head?.map fun start => (start, describeCycle start w)).map fun f => r.say f.1 f.2)
      (ws.map Graph.round) := by
  induction ws with
  | nil => exact .nil
  | cons w ws ih =>
    obtain ⟨start, mid, rfl⟩ := hclosed w List.mem_cons_self
    have hrest := ih fun v hv => hclosed v (List.mem_cons_of_mem _ hv)
    have htext := congrArg (r.say start) (describeCycle_closed start mid)
    exact .cons ⟨start, mid, Graph.round_closed start mid, htext⟩ hrest

/-- The messages tell the cycles of the graph, one message each. -/
theorem messages_tell {ts : List Table} (hnames : (ts.map (·.name)).Nodup) (level : Level) :
    List.Forall₂ (Rule.Tells ⟨.foreignKeyRelationshipCycle, level⟩)
      (Rule.messages ⟨.foreignKeyRelationshipCycle, level⟩ (.tables ts))
      (referenceGraph ts).rounds := by
  have hmessages : Rule.messages ⟨.foreignKeyRelationshipCycle, level⟩ (.tables ts) =
      (relationshipCycles ts).map fun f =>
        Rule.say ⟨.foreignKeyRelationshipCycle, level⟩ f.1 f.2 := by
    show ((relationshipCycles ts).map _).map _ = _
    rw [List.map_map]
    exact List.map_congr_left fun f _ => Rule.message_words _ _ _
  rw [hmessages]
  refine tells_of_closed _ fun w hw => ?_
  obtain ⟨start, mid, hw, -⟩ :=
    Graph.exists_of_mem_cyclesFrom (referenceGraph_simple hnames).nodes hw
  exact ⟨start, mid, hw⟩

end Lint

/-- **Silence means order, and the listing does not matter.** The rule about cycles says nothing
exactly if the tables can be ranked so that every foreign key between two different ones leads to a
smaller rank. For the same tables listed in another way it gives as many messages, and they tell
the same cycles up to rotation. -/
theorem cycleMessages_rank_and_listing {ts : List Table} (hnames : (ts.map (·.name)).Nodup)
    (level : Level) :
    let rule : Rule := ⟨.foreignKeyRelationshipCycle, level⟩
    let cycles := fun us : List Table => (Lint.referenceGraph us).rounds
    (rule.messages (.tables ts) = [] ↔
      ∃ rank : Table → Int, ∀ t ∈ ts, ∀ u ∈ ts, t.References u → rank u < rank t) ∧
    ∀ us, SameReferences ts us →
      (rule.messages (.tables us)).length = (rule.messages (.tables ts)).length ∧
      List.Forall₂ rule.Tells (rule.messages (.tables ts)) (cycles ts) ∧
      List.Forall₂ rule.Tells (rule.messages (.tables us)) (cycles us) ∧
      (cycles ts).Perm (cycles us) := by
  intro rule cycles
  have htell := Lint.messages_tell hnames level
  refine ⟨?_, fun us h => ?_⟩
  · rw [← Lint.exists_rank_iff hnames,
      ← Graph.cycles_eq_nil_iff (Lint.referenceGraph_simple hnames)]
    have hlength :
        (rule.messages (.tables ts)).length = (Lint.referenceGraph ts).cycles.length := by
      rw [htell.length_eq, Graph.rounds, List.length_map]
    rw [← List.length_eq_zero_iff, ← List.length_eq_zero_iff, hlength]
  · have htell' := Lint.messages_tell (h.names.nodup_iff.mp hnames) level
    have hperm := Lint.rounds_perm_of_sameReferences hnames h
    refine ⟨?_, htell, htell', hperm⟩
    rw [htell.length_eq, htell'.length_eq, hperm.length_eq]

/-- A foreign key of the one table that references the other. -/
def keyTo (child parent : String) : Relationship where
  childTable := .bare child
  childKey := ⟨.null, .foreign, [], .bool true⟩
  parentTable := .bare parent
  parentKey := ⟨.null, .primary, [], .bool true⟩

/-- A person belongs to a team and has a manager among the persons. -/
def person : Table where
  name := .bare "person"
  parentKeys := [keyTo "person" "person", keyTo "person" "team"]

/-- A team has a leader, and a place that is not among the tables. -/
def team : Table where
  name := .bare "team"
  parentKeys := [keyTo "team" "person", keyTo "team" "place"]

/-- The team with its foreign keys in the other order, one of them twice. -/
def teamAgain : Table where
  name := .bare "team"
  parentKeys := [keyTo "team" "place", keyTo "team" "person", keyTo "team" "place"]

theorem team_cycleMessages :
    let messages := Rule.messages ⟨.foreignKeyRelationshipCycle, .warning⟩
    (messages (.tables [person, team])).map (·.target) = [some (.bare "person")] ∧
      (messages (.tables [teamAgain, person])).map (·.target) = [some (.bare "team")] ∧
      (messages (.tables [person, team])).map (·.text) =
        ["The table person is part of a cycle of foreign key relationships: " ++
          "person -> team -> person. Consider removing one of the relationships."] ∧
      (messages (.tables [teamAgain, person])).map (·.text) =
        ["The table team is part of a cycle of foreign key relationships: " ++
          "team -> person -> team. Consider removing one of the relationships."] ∧
      (messages (.tables [teamAgain, person])).length =
        (messages (.tables [person, team])).length ∧
      (Lint.referenceGraph [person, team]).rounds.Perm
        (Lint.referenceGraph [teamAgain, person]).rounds ∧
      ¬ ∃ rank : Table → Int, ∀ t ∈ [person, team], ∀ u ∈ [person, team],
        t.References u → rank u < rank t := by
  have hnames : ([person, team].map (·.name)).Nodup := by decide +kernel
  have hsame : SameReferences [person, team] [teamAgain, person] := by
    refine ⟨[team, person], .swap _ _ _, .cons ⟨rfl, ?_⟩ (.cons ⟨rfl, fun _ => Iff.rfl⟩ .nil)⟩
    intro k
    simp only [team, teamAgain, List.mem_cons, List.not_mem_nil, or_false]
    constructor
    · rintro (h | h | h) <;> simp [h]
    · rintro (h | h) <;> simp [h]
  obtain ⟨hrank, hlisting⟩ := cycleMessages_rank_and_listing hnames .warning
  obtain ⟨hlength, -, -, hperm⟩ := hlisting _ hsame
  have htarget : (Rule.messages ⟨.foreignKeyRelationshipCycle, .warning⟩
      (.tables [person, team])).map (·.target) = [some (.bare "person")] := by decide +kernel
  refine ⟨htarget, by decide +kernel, by decide +kernel, by decide +kernel, hlength, hperm,
    fun h => ?_⟩
  rw [hrank.mpr h] at htarget
  exact List.cons_ne_nil _ _ htarget.symm

end SchemaAudit
