import SchemaAudit.Proofs.Lint.Cursor
import SchemaAudit.Proofs.Lint.Locality
import SchemaAudit.Proofs.Lint.Selection

/-!
# Where messages come from

An inspection finds what it finds under the names of the objects that it looks at, and finds nothing
in objects of a kind that it does not support. Two inspections look at all tables together, and one
of them follows references that may lead to tables outside; it, too, reports tables that it was
given.

- `Message.ComesFrom`: a message is that of a rule about one of the objects of a collection.
- `Inspection.name_of_mem_findings`, `Inspection.supports_of_mem_findings`: the laws of the
  inspections.
- `lint_comesFrom`: every message of a selection of rules comes from a rule that is on.
-/

namespace SchemaAudit

/-- A message is one of the given rule about one of the objects: it has the number, the title and
the level of the rule, which looks at such objects, and the name of an object. -/
structure Message.ComesFrom (m : Message) (r : Rule) (c : Collection) : Prop where
  ruleId : m.ruleId = r.kind.id
  title : m.title = r.kind.title
  level : m.level = r.level
  kind : c.kind ∈ r.kinds
  target : ∃ name ∈ c.names, m.target = some name

namespace Inspection

variable {i : Inspection} {c : Collection}

/-- What is found in an object by itself is found under its name. -/
theorem name_of_mem_each {α : Type} {f : Finding} {as : List α} {name : α → Identifier}
    {say : α → List Wording}
    (h : f ∈ (as.map fun a => (say a).map fun text => (name a, text)).flatten) :
    f.1 ∈ as.map name := by
  obtain ⟨fs, hfs, hf⟩ := List.mem_flatten.mp h
  obtain ⟨a, ha, rfl⟩ := List.mem_map.mp hfs
  obtain ⟨text, -, rfl⟩ := List.mem_map.mp hf
  exact List.mem_map_of_mem ha

/-- What is found in all tables together is found under the name of one of them. -/
theorem name_of_mem_joint {fs : List Finding} (h : i.joint? c = some fs) :
    ∀ f ∈ fs, f.1 ∈ c.names := by
  intro f hf
  unfold joint? at h
  split at h
  · next ts =>
    obtain rfl := Option.some.inj h
    obtain ⟨t, ht, hf⟩ := List.mem_flatMap.mp hf
    obtain ⟨text, -, rfl⟩ := List.mem_map.mp hf
    exact List.mem_map_of_mem ht
  · next ts =>
    obtain rfl := Option.some.inj h
    obtain ⟨told, htold, rfl⟩ := List.mem_map.mp hf
    obtain ⟨t, ht, hname⟩ := Lint.name_of_mem_relationshipCycles htold
    exact hname ▸ List.mem_map_of_mem ht
  · cases h

/-- An inspection finds what it finds under the names of the objects. -/
theorem name_of_mem_findings {f : Finding} (h : f ∈ i.findings c) : f.1 ∈ c.names := by
  rw [findings] at h
  cases hjoint : i.joint? c with
  | some fs =>
    rw [hjoint] at h
    exact name_of_mem_joint hjoint f h
  | none =>
    rw [hjoint] at h
    cases c with
    | tables ts => exact name_of_mem_each h
    | views vs => exact name_of_mem_each h
    | sequences ss => exact name_of_mem_each h
    | synonyms ss => exact name_of_mem_each h
    | routines rs => exact name_of_mem_each h

/-- Where an inspection finds something, it looks. -/
theorem supports_of_mem_findings {f : Finding} (h : f ∈ i.findings c) :
    i.supports c.kind = true := by
  refine Bool.of_not_eq_false fun hnot => ?_
  rw [findings_of_unsupported hnot] at h
  exact absurd h List.not_mem_nil

/-- An inspection that looks neither at names nor at all tables together finds in a database what it
says of each table. -/
theorem mem_findings_iff (hmissing : i ≠ .foreignKeyMissing)
    (hcycle : i ≠ .foreignKeyRelationshipCycle) (hnames : i.nameProblem? = none) {d : Database}
    {f : Finding} :
    (∃ c ∈ d.collections, f ∈ i.findings c) ↔
      ∃ t ∈ d.tables, ∃ text ∈ i.ofTable t, f = (t.name, text) := by
  have htables : f ∈ i.findings (.tables d.tables) ↔
      ∃ t ∈ d.tables, ∃ text ∈ i.ofTable t, f = (t.name, text) := by
    rw [findings_tables hmissing hcycle]
    simp only [List.mem_flatMap, List.mem_map, eq_comm]
  rw [← htables]
  constructor
  · rintro ⟨c, hc, hf⟩
    obtain ⟨k, -, rfl⟩ := List.mem_map.mp hc
    have hsupports := supports_of_mem_findings hf
    cases k with
    | table => exact hf
    | _ => simp [supports, hnames, Database.collection, Collection.kind] at hsupports
  · exact fun hf => ⟨_, List.mem_map_of_mem (List.mem_cons_self ..), hf⟩

end Inspection

theorem ObjectKind.mem_all (k : ObjectKind) : k ∈ all := by
  cases k <;> decide

theorem Rule.comesFrom_of_mem_messages {r : Rule} {c : Collection} {m : Message}
    (h : m ∈ r.messages c) : m.ComesFrom r c := by
  obtain ⟨f, hf, rfl⟩ := List.mem_map.mp h
  refine ⟨rfl, rfl, rfl, ?_, f.1, Inspection.name_of_mem_findings hf, rfl⟩
  exact List.mem_filter.mpr ⟨ObjectKind.mem_all _, Inspection.supports_of_mem_findings hf⟩

/-! ### All messages about a database -/

/-- The messages about a database are what the rules find in its collections. -/
theorem mem_lint_iff {rules : List Rule} {m : Message} {d : Database} :
    m ∈ lint rules d ↔ ∃ r ∈ rules, ∃ c ∈ d.collections, ∃ f ∈ r.inspection.findings c,
      m = r.message f := by
  simp only [lint, lintCollection_eq_flatMap, Rule.messages, List.mem_flatMap, List.mem_map]
  constructor
  · rintro ⟨c, hc, r, hr, f, hf, rfl⟩
    exact ⟨r, hr, c, hc, f, hf, rfl⟩
  · rintro ⟨r, hr, c, hc, f, hf, rfl⟩
    exact ⟨c, hc, r, hr, f, hf, rfl⟩

/-- A reading to the end gives the messages about the database, kind by kind. -/
theorem drain_overDatabase (rules : List Rule) (d : Database) (cancellable : Bool) :
    ((Cursor.overDatabase rules d cancellable).drain false).1 =
      ObjectKind.all.flatMap fun kind => lintCollection rules (d.collection kind) := by
  rw [Cursor.drain_idle, Cursor.ahead_overDatabase, Database.collections, List.flatMap_map]
  simp only [lintCollection_eq_evaluated]

/-- **Every message has its rule and its object.** The messages about a database that are read
without cancellation are those about its objects of each kind. Every one of them comes from a rule
that the selection leaves on, which looks at objects of the kind and is the only one with the number
that the message shows; it has the level that the selection gives this rule, and its target is among
the objects, also where a search through references has led to it. -/
theorem lint_comesFrom {s : Selection} {keywords : List String} {rules : List Rule}
    (h : s.build keywords = .ok rules) (d : Database) (cancellable : Bool) :
    ((Cursor.overDatabase rules d cancellable).drain false).1 =
        ObjectKind.all.flatMap (fun kind => lintCollection rules (d.collection kind)) ∧
      ∀ kind, ∀ m ∈ lintCollection rules (d.collection kind), ∃ r ∈ rules,
        m.ComesFrom r (d.collection kind) ∧ ¬ s.Disables r.kind ∧ m.level = s.levelFor r.kind ∧
          ∀ r' ∈ rules, r'.kind.id = m.ruleId → r' = r := by
  refine ⟨drain_overDatabase rules d cancellable, fun kind m hm => ?_⟩
  rw [lintCollection_eq_flatMap] at hm
  obtain ⟨r, hr, hm⟩ := List.mem_flatMap.mp hm
  have hcomes := Rule.comesFrom_of_mem_messages hm
  obtain ⟨hon, hlevel⟩ := Selection.rule_of_mem h hr
  refine ⟨r, hr, hcomes, hon, hcomes.level.trans hlevel, fun r' hr' hid => ?_⟩
  have hkind : r'.kind = r.kind := RuleKind.eq_of_id_eq (hid.trans hcomes.ruleId)
  exact Selection.eq_of_kind_eq h hr' hr hkind

/-- A club of persons in teams, and a view whose name starts with a blank. -/
def club : Database where
  tables := [person, team]
  views := [{ name := .bare " names" }]

/-- All rules but three, and two of these in other spellings. -/
def clubRules : Selection where
  levels := [(.text "schematic0009", .error)]
  disabled := ["candidate_key_missing", "Schematic0011", "SCHEMATIC0012"].map .text

/-- A team leads to a place that is no table of the club, and no message is about it. -/
theorem club_messages :
    ∃ rules, clubRules.build [] = .ok rules ∧
      (∀ kind, ∀ m ∈ lintCollection rules (club.collection kind), ∃ r ∈ rules,
        m.ComesFrom r (club.collection kind) ∧ ¬ clubRules.Disables r.kind ∧
          m.level = clubRules.levelFor r.kind ∧ ∀ r' ∈ rules, r'.kind.id = m.ruleId → r' = r) ∧
      (lint rules club).map (fun m => (m.ruleId, m.level, m.target)) =
        [("SCHEMATIC0007", .warning, some (.bare "person")),
          ("SCHEMATIC0009", .error, some (.bare "person")),
          ("SCHEMATIC0023", .warning, some (.bare " names"))] := by
  have hrules : ∃ rules, clubRules.build [] = .ok rules ∧
      (lint rules club).map (fun m => (m.ruleId, m.level, m.target)) =
        [("SCHEMATIC0007", .warning, some (.bare "person")),
          ("SCHEMATIC0009", .error, some (.bare "person")),
          ("SCHEMATIC0023", .warning, some (.bare " names"))] := by
    decide +kernel
  obtain ⟨rules, hbuild, hmessages⟩ := hrules
  exact ⟨rules, hbuild, (lint_comesFrom hbuild club false).2, hmessages⟩

end SchemaAudit
