import SchemaAudit.Proofs.Graph.Extension
import SchemaAudit.Proofs.Lint.RelationshipCycles
import SchemaAudit.Proofs.Lint.Shown

/-!
# A table that no other one references

Most rules look at one table at a time, and two of them look at all tables together. A table is
added behind the others, under a new name that none of their foreign keys leads to. The main
statement is that nothing changes but what is said about the new table: the messages that have it as
their target, and those that a column of another table implies a relationship to it.

- `Table.IsNewTo`: the new table has a name of its own, and nothing leads to it.
- `attributedMessages`: the messages, each with the table that it takes to be implied.
- `relationshipCycles_concat`, `impliedRelationships_concat`: the two rules that look at all tables.
- `lint_of_isNewTo`: all rules.
-/

namespace SchemaAudit

/-- The table `t` is none of the tables `ts`, and none of their foreign keys leads to it. -/
structure Table.IsNewTo (t : Table) (ts : List Table) : Prop where
  name : ∀ u ∈ ts, u.name ≠ t.name
  references : ∀ u ∈ ts, ∀ k ∈ u.parentKeys, k.parentTable ≠ t.name

theorem Table.IsNewTo.notMem {t : Table} {ts : List Table} (h : t.IsNewTo ts) :
    t.name ∉ ts.map (·.name) := by
  intro hmem
  obtain ⟨u, hu, heq⟩ := List.mem_map.mp hmem
  exact h.name u hu heq

/-! ### Messages and the tables they imply -/

/-- What is found, and the table that a column implies a relationship to where this is what is
found. -/
abbrev Attributed (α : Type) := α × Option Identifier

/-- What the rule about implied relationships finds in a table, each finding with the implied
table. -/
def Lint.attributedRelationships (names : List Identifier) (t : Table) :
    List (Attributed Finding) :=
  ((missingForeignKeys names t).zip (impliedRelationships names t)).map fun q =>
    ((t.name, [.words q.1]), some q.2.2)

/-- What an inspection finds in tables. Only the one about implied relationships takes a table to
be implied. -/
def Inspection.attributed (i : Inspection) (ts : List Table) : List (Attributed Finding) :=
  match i with
  | foreignKeyMissing => ts.flatMap (Lint.attributedRelationships (ts.map (·.name)))
  | i => (i.findings (.tables ts)).map fun f => (f, none)

/-- The messages of a rule about tables, with what they take to be implied. -/
def Rule.attributed (r : Rule) (ts : List Table) : List (Attributed Message) :=
  (r.inspection.attributed ts).map fun f => (r.message f.1, f.2)

/-- The messages of several rules about tables, with what they take to be implied. -/
def attributedMessages (rules : List Rule) (ts : List Table) : List (Attributed Message) :=
  rules.flatMap (·.attributed ts)

/-- Whether a message is not about the table of the given name: this is not its target, and not
what it takes to be implied. -/
def Message.spares (name : Identifier) (m : Attributed Message) : Bool :=
  m.1.target != some name && m.2 != some name

/-- `Message.spares` for findings. -/
def Finding.spares (name : Identifier) (f : Attributed Finding) : Bool :=
  f.1.1 != name && f.2 != some name

/-- What the rule says of a column and the implied table depends on nothing else. -/
theorem Lint.attributedRelationships_eq (t : Table) :
    ∃ say : Column × Identifier → String, ∀ names,
      missingForeignKeys names t = (impliedRelationships names t).map say ∧
        attributedRelationships names t =
          (impliedRelationships names t).map fun p => ((t.name, [.words (say p)]), some p.2) := by
  refine ⟨_, fun names => ⟨rfl, ?_⟩⟩
  rw [attributedRelationships, missingForeignKeys]
  generalize impliedRelationships names t = ps
  induction ps with
  | nil => rfl
  | cons p ps ih => exact congrArg (_ :: ·) ih

theorem Inspection.attributed_findings (i : Inspection) (ts : List Table) :
    (i.attributed ts).map (·.1) = i.findings (.tables ts) := by
  unfold attributed
  split
  · rw [List.map_flatMap]
    show _ = ts.flatMap _
    refine List.flatMap_congr fun t _ => ?_
    obtain ⟨say, hsay⟩ := Lint.attributedRelationships_eq t
    rw [plain, (hsay _).1, (hsay _).2, List.map_map, List.map_map, List.map_map]
    rfl
  · rw [List.map_map]
    exact List.map_id _

theorem attributedMessages_messages (rules : List Rule) (ts : List Table) :
    (attributedMessages rules ts).map (·.1) = lintCollection rules (.tables ts) := by
  rw [attributedMessages, List.map_flatMap, lintCollection_eq_flatMap]
  refine List.flatMap_congr fun r _ => ?_
  rw [Rule.attributed, List.map_map, Rule.messages, ← Inspection.attributed_findings, List.map_map]
  rfl

/-- The messages that take a table to be implied are those of the rule about implied
relationships. -/
theorem attributedMessages_isSome (rules : List Rule) (ts : List Table) :
    ∀ m ∈ attributedMessages rules ts,
      m.2.isSome = true ↔ m.1.ruleId = RuleKind.foreignKeyMissing.id := by
  intro m hm
  obtain ⟨⟨i, level⟩, -, hm⟩ := List.mem_flatMap.mp hm
  obtain ⟨f, hf, rfl⟩ := List.mem_map.mp hm
  show f.2.isSome = true ↔ i.kind.id = _
  cases i
  case foreignKeyMissing =>
    obtain ⟨t, -, hf⟩ := List.mem_flatMap.mp hf
    obtain ⟨q, -, rfl⟩ := List.mem_map.mp hf
    exact ⟨fun _ => rfl, fun _ => rfl⟩
  -- no other inspection takes a table to be implied, or has the number of this one
  all_goals
    obtain ⟨g, -, rfl⟩ := List.mem_map.mp hf
    simp [Inspection.kind, RuleKind.id]

/-! ### Rules that look at all tables -/

namespace Lint

variable {ts : List Table} {t : Table}

/-- The nodes of the graph of references are names of tables. -/
theorem mem_of_mem_referenceGraph_nodes {n : Identifier} (h : n ∈ (referenceGraph ts).nodes) :
    ∃ u ∈ ts, u.name = n := by
  obtain ⟨e, he, rfl⟩ := List.mem_map.mp h
  obtain ⟨u, hu, rfl⟩ := List.mem_map.mp (Graph.mem_of_mem_ofEntries he)
  exact ⟨u, hu, rfl⟩

/-- The new table has its place behind the nodes of the others, and it is on no cycle. -/
theorem relationshipCycles_concat (h : t.IsNewTo ts) :
    relationshipCycles (ts ++ [t]) = relationshipCycles ts := by
  have hnew : t.name ∉ (referenceGraph ts).nodes := by
    intro hmem
    obtain ⟨u, hu, heq⟩ := mem_of_mem_referenceGraph_nodes hmem
    exact h.name u hu heq
  have hin : ∀ a, ¬ (referenceGraph ts).Edge a t.name := by
    intro a hedge
    obtain ⟨e, he, -, hmem⟩ := Graph.exists_of_edge hedge
    obtain ⟨u, hu, rfl⟩ := List.mem_map.mp (Graph.mem_of_mem_ofEntries he)
    obtain ⟨-, k, hk, hparent⟩ := mem_referencedTables_iff.mp hmem
    exact h.references u hu k hk hparent
  have hself : t.name ∉ referencedTables t := fun hmem =>
    (mem_referencedTables_iff.mp hmem).1 rfl
  have hgraph :
      referenceGraph (ts ++ [t]) = referenceGraph ts ++ [(t.name, referencedTables t)] := by
    rw [referenceGraph, List.map_append, List.map_singleton, Graph.ofEntries_concat]
    exact Graph.put_of_notMem hnew
  rw [relationshipCycles, relationshipCycles, hgraph, Graph.cycles_concat hnew hin hself]

/-- A cycle is reported for one of the tables. -/
theorem name_of_mem_relationshipCycles {f : Identifier × String} (h : f ∈ relationshipCycles ts) :
    ∃ u ∈ ts, u.name = f.1 := by
  obtain ⟨cycle, hcycle, hf⟩ := List.mem_filterMap.mp h
  obtain ⟨start, hstart, hhead⟩ := Graph.head_mem_of_mem_cyclesFrom hcycle
  rw [hhead] at hf
  obtain rfl := Option.some.inj hf
  exact mem_of_mem_referenceGraph_nodes hstart

/-- A name behind the others is implied only where none of the others is. -/
theorem impliedTable?_concat {names : List Identifier} {new : Identifier} (hnew : new ∉ names)
    (table : Identifier) (column : String) :
    (impliedTable? (names ++ [new]) table column).filter (· != new) =
      impliedTable? names table column := by
  rw [impliedTable?, impliedTable?]
  split
  · rfl
  · rw [List.find?_append]
    cases hfind : names.find? fun n =>
        Text.lowerString n.localName == Text.lowerString (impliedTableName column) with
    | some n =>
      have hne : n ≠ new := fun heq => hnew (heq ▸ List.mem_of_find?_eq_some hfind)
      simp [hne]
    | none =>
      rw [Option.none_or, List.find?_singleton]
      split
      · simp
      · rfl

/-- What the columns of a table imply stays the same, except that some imply the new table. -/
theorem impliedRelationships_concat {names : List Identifier} {new : Identifier}
    (hnew : new ∉ names) (u : Table) :
    (impliedRelationships (names ++ [new]) u).filter (·.2 != new) =
      impliedRelationships names u := by
  rw [impliedRelationships, impliedRelationships, List.filter_filterMap]
  refine List.filterMap_congr fun c _ => ?_
  rw [← impliedTable?_concat hnew u.name c.name]
  cases impliedTable? (names ++ [new]) u.name c.name with
  | none => rfl
  | some n =>
    rw [Option.map_some, Option.filter_some, Option.filter_some]
    split
    · rfl
    · rfl

theorem attributedRelationships_concat {names : List Identifier} {new : Identifier}
    (hnew : new ∉ names) {u : Table} (hu : u.name ≠ new) :
    (attributedRelationships (names ++ [new]) u).filter (Finding.spares new) =
      attributedRelationships names u := by
  obtain ⟨say, hsay⟩ := attributedRelationships_eq u
  rw [(hsay _).2, (hsay _).2, List.filter_map, ← impliedRelationships_concat hnew u]
  refine congrArg (List.map _) (List.filter_congr fun p _ => ?_)
  simp [Finding.spares, bne, hu]

end Lint

/-! ### All rules -/

section Concat

variable {ts : List Table} {t : Table}

/-- Of what is found table by table, what is found in the new table is dropped. -/
theorem filter_flatMap_concat {f g : Table → List (Attributed Finding)}
    {keep : Attributed Finding → Bool} (hkeep : ∀ u ∈ ts, (f u).filter keep = g u)
    (hdrop : ∀ a ∈ f t, keep a = false) :
    ((ts ++ [t]).flatMap f).filter keep = ts.flatMap g := by
  have hnil : (f t).filter keep = [] :=
    List.filter_eq_nil_iff.mpr fun a ha => Bool.eq_false_iff.mp (hdrop a ha)
  rw [List.filter_flatMap, List.flatMap_append, List.flatMap_singleton, hnil, List.append_nil]
  exact List.flatMap_congr hkeep

namespace Inspection

theorem attributed_of_ne {i : Inspection} (hmissing : i ≠ .foreignKeyMissing) (ts : List Table) :
    i.attributed ts = (i.findings (.tables ts)).map fun f => (f, none) := by
  unfold attributed
  split
  · exact absurd rfl hmissing
  · rfl

/-- What an inspection finds besides the new table is what it finds without it. -/
theorem attributed_concat (h : t.IsNewTo ts) (i : Inspection) :
    (i.attributed (ts ++ [t])).filter (Finding.spares t.name) = i.attributed ts := by
  have hspared : ∀ f : Finding, f.1 ≠ t.name → Finding.spares t.name (f, none) = true := by
    intro f hf
    simp [Finding.spares, bne, hf]
  by_cases hmissing : i = .foreignKeyMissing
  · subst hmissing
    have hnames : (ts ++ [t]).map (·.name) = ts.map (·.name) ++ [t.name] := by
      rw [List.map_append]
      rfl
    show List.filter _ ((ts ++ [t]).flatMap
      (Lint.attributedRelationships ((ts ++ [t]).map (·.name)))) = _
    rw [hnames]
    refine filter_flatMap_concat
      (fun u hu => Lint.attributedRelationships_concat h.notMem (h.name u hu)) fun a ha => ?_
    obtain ⟨q, -, rfl⟩ := List.mem_map.mp ha
    simp [Finding.spares]
  rw [attributed_of_ne hmissing, attributed_of_ne hmissing]
  by_cases hcycle : i = .foreignKeyRelationshipCycle
  · subst hcycle
    show (((Lint.relationshipCycles (ts ++ [t])).map _).map _).filter _ =
      ((Lint.relationshipCycles ts).map _).map _
    rw [Lint.relationshipCycles_concat h, List.map_map]
    refine List.filter_eq_self.mpr fun a ha => ?_
    obtain ⟨f, hf, rfl⟩ := List.mem_map.mp ha
    obtain ⟨u, hu, hname⟩ := Lint.name_of_mem_relationshipCycles hf
    exact hspared (f.1, [.words f.2]) (hname ▸ h.name u hu)
  · rw [findings_tables hmissing hcycle, findings_tables hmissing hcycle, List.map_flatMap,
      List.map_flatMap]
    refine filter_flatMap_concat (fun u hu => ?_) fun a ha => ?_
    · refine List.filter_eq_self.mpr fun a ha => ?_
      rw [List.map_map] at ha
      obtain ⟨text, -, rfl⟩ := List.mem_map.mp ha
      exact hspared _ (h.name u hu)
    · rw [List.map_map] at ha
      obtain ⟨text, -, rfl⟩ := List.mem_map.mp ha
      simp [Finding.spares]

end Inspection

theorem Rule.attributed_concat (h : t.IsNewTo ts) (r : Rule) :
    (r.attributed (ts ++ [t])).filter (Message.spares t.name) = r.attributed ts := by
  rw [Rule.attributed, Rule.attributed, List.filter_map, ← Inspection.attributed_concat h]
  rfl

/-- **What is said of a table stays with the table.** A table is added behind others, under a new
name that none of their foreign keys leads to. Whatever the rules are, the messages that do not have
the new table as their target and do not take it to be implied by a column are the messages about
the other tables alone, in the same order. What is taken to be implied belongs to the messages of
one rule only. A run over all tables fails where the run over the others does, and also if a rule
shows a name of the new table that cannot be written. -/
theorem lint_of_isNewTo (h : t.IsNewTo ts) (rules : List Rule) :
    (attributedMessages rules (ts ++ [t])).map (·.1) =
        lintCollection rules (.tables (ts ++ [t])) ∧
      (∀ m ∈ attributedMessages rules (ts ++ [t]),
        m.2.isSome = true ↔ m.1.ruleId = RuleKind.foreignKeyMissing.id) ∧
      ((attributedMessages rules (ts ++ [t])).filter (Message.spares t.name)).map (·.1) =
        lintCollection rules (.tables ts) ∧
      (∀ ms, reportCollection rules (.tables (ts ++ [t])) = .ok ms →
        ms = lintCollection rules (.tables (ts ++ [t])) ∧
          reportCollection rules (.tables ts) = .ok (lintCollection rules (.tables ts))) ∧
      (reportCollection rules (.tables (ts ++ [t])) = .error .unwritable ↔
        reportCollection rules (.tables ts) = .error .unwritable ∨
          ∃ r ∈ rules, r.showsUnwritableIn t = true) := by
  refine ⟨attributedMessages_messages _ _, attributedMessages_isSome _ _, ?_, fun ms hms => ?_, ?_⟩
  · have hrules : (attributedMessages rules (ts ++ [t])).filter (Message.spares t.name) =
        attributedMessages rules ts := by
      rw [attributedMessages, attributedMessages, List.filter_flatMap]
      exact List.flatMap_congr fun r _ => Rule.attributed_concat h r
    rw [hrules, attributedMessages_messages]
  · obtain ⟨hshows, rfl⟩ := reportCollection_eq_ok_iff.mp hms
    rw [showsUnwritable_concat, Bool.or_eq_false_iff] at hshows
    exact ⟨rfl, reportCollection_eq_ok_iff.mpr ⟨hshows.1, rfl⟩⟩
  · rw [reportCollection_eq_error_iff, reportCollection_eq_error_iff, showsUnwritable_concat,
      Bool.or_eq_true, List.any_eq_true]

end Concat

/-- A visitor belongs to a team, and has a column that implies a locker. -/
def visitor : Table where
  name := .bare "visitor"
  columns := [{ name := "locker_id", type := ⟨"int", .integer⟩ }]
  parentKeys := [keyTo "visitor" "team"]

/-- A locker belongs to a person, and has a column that implies a visitor. -/
def locker : Table where
  name := .bare "locker"
  columns := [{ name := "visitorId", type := ⟨"int", .integer⟩ }]
  parentKeys := [keyTo "locker" "person"]

/-- Three messages come with the locker: two about it, and the one that the visitor implies it. The
cycle of the person and the team is told in both cases. -/
theorem locker_messages :
    let rules := [⟨.foreignKeyMissing, .warning⟩, ⟨.foreignKeyRelationshipCycle, .error⟩,
      ⟨.noIndexesPresentOnTable, .information⟩]
    let messages := attributedMessages rules ([person, team, visitor] ++ [locker])
    locker.IsNewTo [person, team, visitor] ∧
      messages.map (fun m => (m.1.ruleId, m.2)) =
        [("SCHEMATIC0008", some (.bare "locker")), ("SCHEMATIC0008", some (.bare "visitor")),
          ("SCHEMATIC0009", none), ("SCHEMATIC0011", none), ("SCHEMATIC0011", none),
          ("SCHEMATIC0011", none), ("SCHEMATIC0011", none)] ∧
      (messages.filter (Message.spares locker.name)).map (·.1) =
        lintCollection rules (.tables [person, team, visitor]) ∧
      (lintCollection rules (.tables [person, team, visitor])).length = 4 := by
  intro rules messages
  have hnew : locker.IsNewTo [person, team, visitor] := ⟨by decide +kernel, by decide +kernel⟩
  obtain ⟨-, -, hmessages, -, -⟩ := lint_of_isNewTo hnew rules
  exact ⟨hnew, by decide +kernel, hmessages, by decide +kernel⟩

end SchemaAudit
