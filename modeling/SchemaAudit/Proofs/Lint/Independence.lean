import SchemaAudit.Proofs.Lint.Messages

/-!
# Rules that know nothing of each other

What a rule finds depends on the database and on the parameters of the rule, and neither on other
rules nor on its level. Two runs over one database tell this: if a rule is turned off, then its
messages are missing and nothing else changes; if only levels are changed, then the same messages
come in the same places, each at the level of its rule. In which spellings a selection speaks of
rules makes no difference.

- `lint_filter`: the messages of all rules but one.
- `Message.AgreesUnder`: two messages of one rule that say the same, each at the level that its own
  selection gives to the rule.
- `lint_reconfigured`: the main statement, for every selection and every database, and for runs that
  fail at a name that cannot be written.
-/

namespace SchemaAudit

/-! ### A rule that is turned off -/

/-- All messages of a rule show its number, so all of them are kept or none. -/
theorem Rule.messages_filter (r : Rule) (k : RuleKind) (c : Collection) :
    (r.messages c).filter (·.ruleId != k.id) = if r.kind = k then [] else r.messages c := by
  split
  · next hk =>
    refine List.filter_eq_nil_iff.mpr fun m hm => ?_
    rw [(Rule.comesFrom_of_mem_messages hm).ruleId, hk]
    simp
  · next hk =>
    refine List.filter_eq_self.mpr fun m hm => ?_
    have hne : r.kind.id ≠ k.id := fun hid => hk (RuleKind.eq_of_id_eq hid)
    rw [(Rule.comesFrom_of_mem_messages hm).ruleId]
    exact bne_iff_ne.mpr hne

theorem lintCollection_filter (rules : List Rule) (k : RuleKind) (c : Collection) :
    lintCollection (rules.filter (·.kind != k)) c =
      (lintCollection rules c).filter (·.ruleId != k.id) := by
  rw [lintCollection_eq_flatMap, lintCollection_eq_flatMap]
  induction rules with
  | nil => rfl
  | cons r rules ih =>
    rw [List.flatMap_cons, List.filter_append, Rule.messages_filter, ← ih]
    by_cases hk : r.kind = k
    · rw [List.filter_cons_of_neg (by simp [hk]), if_pos hk, List.nil_append]
    · rw [List.filter_cons_of_pos (by simp [hk]), if_neg hk, List.flatMap_cons]

/-- The messages of all rules but one are those that do not show its number. -/
theorem lint_filter (rules : List Rule) (k : RuleKind) (d : Database) :
    lint (rules.filter (·.kind != k)) d = (lint rules d).filter (·.ruleId != k.id) := by
  unfold lint
  rw [List.filter_flatMap]
  exact List.flatMap_congr fun c _ => lintCollection_filter rules k c

/-! ### Other levels -/

/-- Two rules look for the same, each at the level that its own selection gives it. -/
structure Rule.AgreesUnder (s s' : Selection) (r r' : Rule) : Prop where
  inspection : r'.inspection = r.inspection
  level : r.level = s.levelFor r.kind
  level' : r'.level = s'.levelFor r.kind

/-- Two messages say the same of the same object, and each has the level that its own selection
gives to the rule from which they come. -/
structure Message.AgreesUnder (s s' : Selection) (m m' : Message) : Prop where
  ruleId : m'.ruleId = m.ruleId
  title : m'.title = m.title
  text : m'.text = m.text
  target : m'.target = m.target
  level : ∃ k : RuleKind, k.id = m.ruleId ∧ m.level = s.levelFor k ∧ m'.level = s'.levelFor k

section Levels

variable {s s' : Selection}

theorem Rule.AgreesUnder.messages {r r' : Rule} (h : r.AgreesUnder s s' r') (c : Collection) :
    List.Forall₂ (Message.AgreesUnder s s') (r.messages c) (r'.messages c) := by
  have hkind : r'.kind = r.kind := congrArg Inspection.kind h.inspection
  rw [Rule.messages, Rule.messages, h.inspection, List.forall₂_map_left_iff,
    List.forall₂_map_right_iff, List.forall₂_same]
  intro f _
  exact {
    ruleId := congrArg RuleKind.id hkind
    title := congrArg RuleKind.title hkind
    text := rfl
    target := rfl
    level := ⟨r.kind, rfl, h.level, h.level'⟩ }

/-- Rules that agree one by one give messages that do. -/
theorem lint_agreesUnder {rules rules' : List Rule}
    (h : List.Forall₂ (Rule.AgreesUnder s s') rules rules') (d : Database) :
    List.Forall₂ (Message.AgreesUnder s s') (lint rules d) (lint rules' d) := by
  have hcollection : ∀ c, List.Forall₂ (Message.AgreesUnder s s') (lintCollection rules c)
      (lintCollection rules' c) := fun c => by
    rw [lintCollection_eq_flatMap, lintCollection_eq_flatMap]
    exact List.rel_flatMap h fun _ _ hr => hr.messages c
  unfold lint
  have hcollections : List.Forall₂ (· = ·) d.collections d.collections :=
    List.forall₂_same.mpr fun _ _ => rfl
  refine List.rel_flatMap hcollections ?_
  rintro c _ rfl
  exact hcollection c

/-- Rules that agree one by one show the same names. -/
theorem showsUnwritable_of_agreesUnder {rules rules' : List Rule}
    (h : List.Forall₂ (Rule.AgreesUnder s s') rules rules') (ts : List Table) :
    showsUnwritable rules' ts = showsUnwritable rules ts := by
  unfold showsUnwritable
  induction h with
  | nil => rfl
  | @cons r r' rules rules' hr _ ih =>
    have hin : r'.showsUnwritableIn = r.showsUnwritableIn := by
      funext t
      rw [Rule.showsUnwritableIn, hr.inspection]
      rfl
    rw [List.any_cons, List.any_cons, ih, hin]

end Levels

/-! ### Two selections -/

namespace Selection

variable {s s' : Selection} {keywords : List String} {rules : List Rule}

/-- A key that is added to those that turn rules off turns off its own rule besides, wherever it
stands among them. -/
theorem disables_insert_iff {k l : RuleKind} {key : Doc} {before after : List Doc}
    (hkey : k.NamedBy key) (hoff : s.disabled = before ++ after) :
    Disables { s with disabled := before ++ key :: after } l ↔ l = k ∨ s.Disables l := by
  have hname : l.NamedBy key ↔ l = k := by
    constructor
    · exact fun hl => RuleKind.eq_of_namedBy hl hkey
    · exact fun hl => hl ▸ hkey
  unfold Disables
  rw [hoff]
  simp only [List.mem_append, List.mem_cons, or_and_right, exists_or, exists_eq_left, hname]
  exact or_left_comm

/-- If one more rule is turned off, then the other ones are built as before. -/
theorem build_insert {k : RuleKind} {key : Doc} {before after : List Doc}
    (h : s.build keywords = .ok rules) (hkey : k.NamedBy key)
    (hoff : s.disabled = before ++ after) :
    build { s with disabled := before ++ key :: after } keywords =
      .ok (rules.filter (·.kind != k)) := by
  obtain ⟨hkeys, hrules⟩ := build_eq_ok_iff.mp h
  refine build_eq_ok_iff.mpr ⟨?_, ?_⟩
  · intro x hx
    have hcases : x = key ∨ x ∈ s.keys := by
      simp only [keys, hoff, List.mem_append, List.mem_cons] at hx ⊢
      grind
    rcases hcases with rfl | hmem
    · exact ⟨k, hkey⟩
    · exact hkeys x hmem
  · have henabled : enabled { s with disabled := before ++ key :: after } =
        s.enabled.filter (· != k) := by
      unfold enabled
      rw [List.filter_filter]
      refine List.filter_congr fun l _ => ?_
      by_cases hl : l = k
      · simp [disables_insert_iff hkey hoff, hl]
      · simp [disables_insert_iff hkey hoff, hl]
    rw [henabled]
    -- what is made of a rule does not depend on which rules are off
    show List.Forall₂ (fun l r => s.make keywords l = .ok r) _ _
    refine List.rel_filter (fun l r hr => ?_) hrules
    show (l != k) = true ↔ (r.kind != k) = true
    rw [kind_of_make hr]

/-- If only levels are given otherwise, then the same rules are built. -/
theorem build_relevel (h : s.build keywords = .ok rules)
    (hkeys : ∀ key ∈ s'.keys, RuleKind.IsSpelling key)
    (hoff : ∀ k, s'.Disables k ↔ s.Disables k) (hlimit : s'.columnLimit = s.columnLimit) :
    ∃ rules', s'.build keywords = .ok rules' ∧
      List.Forall₂ (Rule.AgreesUnder s s') rules rules' := by
  obtain ⟨-, hrules⟩ := build_eq_ok_iff.mp h
  have henabled : s'.enabled = s.enabled := by
    unfold enabled
    simp only [hoff]
  refine ⟨rules.map fun r => { r with level := s'.levelFor r.kind },
    build_eq_ok_iff.mpr ⟨hkeys, ?_⟩, ?_⟩
  · rw [henabled, List.forall₂_map_right_iff]
    refine hrules.imp fun k r hr => ?_
    obtain ⟨hinspection, -⟩ := make_eq_ok_iff.mp hr
    refine make_eq_ok_iff.mpr ⟨?_, ?_⟩
    · rw [hlimit]
      exact hinspection
    · rw [kind_of_make hr]
  · rw [List.forall₂_map_right_iff, List.forall₂_same]
    intro r hr
    exact ⟨rfl, (rule_of_mem h hr).2, rfl⟩

end Selection

/-- **Two runs.** A selection is changed in one of two ways. If one more rule is turned off, in
whatever spelling, then the messages about a database are those of the first run without the
messages that show the number of this rule. If the same rules are left on with the same limit, and
all levels are given otherwise, then the messages are as many and say the same one by one, each at
the level that its own selection gives to its rule. Where the first run does not fail, neither does
the second one; with other levels the one fails exactly if the other does. -/
theorem lint_reconfigured {s : Selection} {keywords : List String} {rules : List Rule}
    (h : s.build keywords = .ok rules) (d : Database) :
    (∀ (k : RuleKind) (key : Doc) (before after : List Doc),
        k.NamedBy key → s.disabled = before ++ after →
          ∃ rest, { s with disabled := before ++ key :: after : Selection }.build keywords =
              .ok rest ∧
            lint rest d = (lint rules d).filter (·.ruleId != k.id) ∧
            ∀ ms, report rules d = .ok ms →
              report rest d = .ok (ms.filter (·.ruleId != k.id))) ∧
      ∀ s' : Selection, (∀ key ∈ s'.keys, RuleKind.IsSpelling key) →
        (∀ k, s'.Disables k ↔ s.Disables k) → s'.columnLimit = s.columnLimit →
          ∃ rules', s'.build keywords = .ok rules' ∧
            List.Forall₂ (Message.AgreesUnder s s') (lint rules d) (lint rules' d) ∧
            (∀ ms, report rules d = .ok ms → ∃ ms', report rules' d = .ok ms' ∧
              List.Forall₂ (Message.AgreesUnder s s') ms ms') ∧
            (report rules d = .error .unwritable ↔ report rules' d = .error .unwritable) := by
  constructor
  · intro k key before after hkey hoff
    refine ⟨_, Selection.build_insert h hkey hoff, lint_filter rules k d, fun ms hms => ?_⟩
    obtain ⟨hshows, rfl⟩ := report_eq_ok_iff.mp hms
    refine report_eq_ok_iff.mpr ⟨?_, (lint_filter rules k d).symm⟩
    exact showsUnwritable_of_inspections
      (fun r hr => ⟨r, (List.mem_filter.mp hr).1, rfl⟩) hshows
  · intro s' hkeys hoff hlimit
    obtain ⟨rules', hbuild, hsame⟩ := Selection.build_relevel h hkeys hoff hlimit
    have hshows := showsUnwritable_of_agreesUnder hsame d.tables
    refine ⟨rules', hbuild, lint_agreesUnder hsame d, fun ms hms => ?_, ?_⟩
    · obtain ⟨hnone, rfl⟩ := report_eq_ok_iff.mp hms
      exact ⟨_, report_eq_ok_iff.mpr ⟨hshows ▸ hnone, rfl⟩, lint_agreesUnder hsame d⟩
    · rw [report_eq_error_iff, report_eq_error_iff, hshows]

/-- The rules of the club with two of them in other spellings, and with other levels. -/
def quietRules : Selection where
  defaultLevel := .information
  levels := [(.text "whitespace_name", .information), (.text "schematic0023", .warning)]
  disabled := ["no_indexes_present_on_table", "schematic0012", "candidate_key_missing"].map .text

/-- Without the rule about cycles one message of three is missing. With other levels all of them
come, and two have another level than before. -/
theorem club_reconfigured :
    ∃ rules ms, clubRules.build [] = .ok rules ∧ report rules club = .ok ms ∧
      (∃ rest, { clubRules with disabled := .text "Schematic0009" :: clubRules.disabled :
            Selection }.build [] = .ok rest ∧
          lint rest club = (lint rules club).filter (·.ruleId != "SCHEMATIC0009") ∧
          report rest club = .ok (ms.filter (·.ruleId != "SCHEMATIC0009"))) ∧
      (∃ rules', quietRules.build [] = .ok rules' ∧
          List.Forall₂ (Message.AgreesUnder clubRules quietRules) (lint rules club)
            (lint rules' club) ∧
          ∃ ms', report rules' club = .ok ms' ∧
            List.Forall₂ (Message.AgreesUnder clubRules quietRules) ms ms') ∧
      ms.map (·.ruleId) = ["SCHEMATIC0007", "SCHEMATIC0009", "SCHEMATIC0023"] := by
  have hrules : ∃ rules, clubRules.build [] = .ok rules ∧ ∃ ms, report rules club = .ok ms ∧
      ms.map (·.ruleId) = ["SCHEMATIC0007", "SCHEMATIC0009", "SCHEMATIC0023"] := by
    decide +kernel
  obtain ⟨rules, hbuild, ms, hms, hids⟩ := hrules
  obtain ⟨hinsert, hrelevel⟩ := lint_reconfigured hbuild club
  have hcycle : RuleKind.foreignKeyRelationshipCycle.NamedBy (.text "Schematic0009") := by
    decide +kernel
  have hkeys : ∀ key ∈ quietRules.keys, RuleKind.IsSpelling key := by
    decide +kernel
  have hoff : ∀ k ∈ RuleKind.all, quietRules.Disables k ↔ clubRules.Disables k := by
    decide +kernel
  obtain ⟨rest, hrest, hfiltered, hreport⟩ := hinsert _ _ [] _ hcycle rfl
  obtain ⟨rules', hrules', hsame, hreport', -⟩ :=
    hrelevel quietRules hkeys (fun k => hoff k (RuleKind.mem_all k)) rfl
  exact ⟨rules, ms, hbuild, hms, ⟨rest, hrest, hfiltered, hreport ms hms⟩,
    ⟨rules', hrules', hsame, hreport' ms hms⟩, hids⟩

end SchemaAudit
