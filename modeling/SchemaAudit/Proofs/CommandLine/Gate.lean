import SchemaAudit.Proofs.Lint.Independence
import SchemaAudit.Proofs.Settings.Building
import SchemaAudit.Proofs.Snapshot.Loading
import SchemaAudit.Proofs.Snapshot.PartNames

/-!
# Lint runs as a gate

A run of `lint` that gets as far as its rules writes their messages, counts them by level, and ends
with status 1 exactly if one of them reaches the level that makes the run fail. Of two runs over one
database, the one with the stricter settings finds all that the other one finds, at the same levels
or higher ones, and so it does not let through what the other one stops.

There is one more way in which such a run ends. A message that shows a name in which an integer has
too many digits cannot be written, and then the run fails. Which names are shown depends neither on
levels nor on the threshold.

- `Linting`: a run that gets as far as its rules.
- `Settings.Tightened`: settings that are as strict as other ones, or more.
- `exists_message_of_tightened`: what is found under the one is found under the other.
- `lint_gate`: how runs end, and how the ends of two runs over one database are related.
-/

namespace SchemaAudit

/-! ### Stricter settings -/

/-- The settings `s'` are as strict as `s`, or more. The threshold is not higher, no rule is lowered
in its level or turned off besides, and the limit for the number of columns is the same. -/
structure Settings.Tightened (s s' : Settings) : Prop where
  failOn : s'.failOn.rank ≤ s.failOn.rank
  level : ∀ k, (s.selection.levelFor k).rank ≤ (s'.selection.levelFor k).rank
  enabled : ∀ k, s'.selection.Disables k → s.selection.Disables k
  limit : s'.maxColumns = s.maxColumns

namespace Settings

variable {s : Settings}

/-- The level of a rule is that of the last entry for it, or else the default. -/
theorem levelFor_selection (s : Settings) (k : RuleKind) :
    s.selection.levelFor k =
      ((s.levels.reverse.find? fun e => k.NamedBy e.1).map (·.2)).getD s.level := rfl

/-- The threshold is lowered. -/
theorem tightened_failOn {l : Level} (h : l.rank ≤ s.failOn.rank) :
    s.Tightened { s with failOn := l } where
  failOn := h
  level _ := Nat.le_refl _
  enabled _ := id
  limit := rfl

/-- The default level is raised. -/
theorem tightened_level {l : Level} (h : s.level.rank ≤ l.rank) :
    s.Tightened { s with level := l } where
  failOn := Nat.le_refl _
  level k := by
    simp only [levelFor_selection]
    cases (s.levels.reverse.find? fun e => k.NamedBy e.1).map (·.2) with
    | none => exact h
    | some _ => exact Nat.le_refl _
  enabled _ := id
  limit := rfl

/-- The levels of single rules are raised, entry by entry. -/
theorem tightened_levels {levels : List (Doc × Level)}
    (h : List.Forall₂ (fun e e' => e'.1 = e.1 ∧ e.2.rank ≤ e'.2.rank) s.levels levels) :
    s.Tightened { s with levels } where
  failOn := Nat.le_refl _
  level k := by
    have hreversed := List.forall₂_reverse_iff.mpr h
    simp only [levelFor_selection]
    generalize s.levels.reverse = es, levels.reverse = es' at hreversed ⊢
    induction hreversed with
    | nil => exact Nat.le_refl _
    | @cons e e' es es' he _ ih =>
      obtain ⟨hkey, hrank⟩ := he
      rw [List.find?_cons, List.find?_cons, hkey]
      by_cases hk : k.NamedBy e.1
      · simpa [hk] using hrank
      · simpa [hk] using ih
  enabled _ := id
  limit := rfl

/-- A rule is given a level of its own that is not lower than the one it has. Other entries may
still decide on it. -/
theorem tightened_override {k : RuleKind} {key : Doc} {l : Level}
    {before after : List (Doc × Level)} (hkey : k.NamedBy key) (hlevels : s.levels = before ++ after)
    (hl : (s.selection.levelFor k).rank ≤ l.rank) :
    s.Tightened { s with levels := before ++ (key, l) :: after } where
  failOn := Nat.le_refl _
  level j := by
    rw [levelFor_selection, hlevels] at hl
    simp only [levelFor_selection, hlevels]
    simp only [List.reverse_append, List.reverse_cons, List.append_assoc, List.find?_append,
      List.singleton_append] at hl ⊢
    by_cases hj : j.NamedBy key
    · obtain rfl := RuleKind.eq_of_namedBy hkey hj
      rw [List.find?_cons_of_pos (by simpa using hkey)]
      -- an entry behind the new one decides in both cases
      cases hlater : after.reverse.find? fun e => k.NamedBy e.1 with
      | some e => simp
      | none =>
        rw [hlater] at hl
        simpa using hl
    · rw [List.find?_cons_of_neg (by simpa using hj)]
  enabled _ := id
  limit := rfl

/-- Some of the rules that are off are turned on. -/
theorem tightened_disabled {disabled : List Doc} (h : disabled ⊆ s.disabled) :
    s.Tightened { s with disabled } where
  failOn := Nat.le_refl _
  level _ := Nat.le_refl _
  enabled := by
    rintro k ⟨key, hkey, hk⟩
    exact ⟨key, h hkey, hk⟩
  limit := rfl

end Settings

section Selections

variable {s s' : Settings} {keywords : List String} {rules rules' : List Rule}

/-- A rule of one selection has a counterpart in another one, unless that turns it off. -/
theorem exists_counterpart (hlimit : s'.maxColumns = s.maxColumns)
    (hbuild : s.selection.build keywords = .ok rules)
    (hbuild' : s'.selection.build keywords = .ok rules') {r : Rule} (hr : r ∈ rules)
    (hon : ¬ s'.selection.Disables r.kind) :
    ∃ r' ∈ rules', r.AgreesUnder s.selection s'.selection r' := by
  obtain ⟨-, hrules⟩ := Selection.build_eq_ok_iff.mp hbuild
  obtain ⟨-, hrules'⟩ := Selection.build_eq_ok_iff.mp hbuild'
  obtain ⟨k, -, hmade⟩ := exists_partner hrules.flip r hr
  obtain rfl := Selection.kind_of_make hmade
  have henabled : r.kind ∈ s'.selection.enabled :=
    List.mem_filter.mpr ⟨RuleKind.mem_all _, decide_eq_true hon⟩
  obtain ⟨r', hr', hmade'⟩ := exists_partner hrules' r.kind henabled
  obtain ⟨hinspection, hlevel⟩ := Selection.make_eq_ok_iff.mp hmade
  obtain ⟨hinspection', hlevel'⟩ := Selection.make_eq_ok_iff.mp hmade'
  refine ⟨r', hr', ?_, hlevel, hlevel'⟩
  have hlimits : s'.selection.columnLimit = s.selection.columnLimit := congrArg Doc.int hlimit
  rw [hlimits, hinspection] at hinspection'
  exact (Except.ok.inj hinspection').symm

/-- Every message comes under stricter settings too, and its level is not lower. -/
theorem exists_message_of_tightened (h : s.Tightened s')
    (hbuild : s.selection.build keywords = .ok rules)
    (hbuild' : s'.selection.build keywords = .ok rules') {d : Database} {m : Message}
    (hm : m ∈ lint rules d) : ∃ m' ∈ lint rules' d, m.level.rank ≤ m'.level.rank := by
  obtain ⟨r, hr, c, hc, f, hf, rfl⟩ := mem_lint_iff.mp hm
  obtain ⟨hon, -⟩ := Selection.rule_of_mem hbuild hr
  obtain ⟨r', hr', hagrees⟩ := exists_counterpart h.limit hbuild hbuild' hr
    fun hoff => hon (h.enabled _ hoff)
  refine ⟨r'.message f, ?_, ?_⟩
  · exact mem_lint_iff.mpr ⟨r', hr', c, hc, f, hagrees.inspection ▸ hf, rfl⟩
  · show r.level.rank ≤ r'.level.rank
    rw [hagrees.level, hagrees.level']
    exact h.level r.kind

end Selections

namespace CommandLine

open Settings (Environment)

/-! ### One run -/

/-- A run of `lint` whose settings, database and rules are the given ones. -/
structure Linting [Yaml.Library] (a : Arguments) (env : Environment) (t : FileTree) (s : Settings)
    (d : Database) (rules : List Rule) : Prop where
  command : a.command = .lint
  gathered : Settings.gather t env a.explicit = .ok s
  loaded : Snapshot.load t s.schemaPath = .ok d
  built : s.selection.build d.reservedKeywords = .ok rules

/-- The line that shows the number of messages, in all and at each level. -/
def countedLine (total : Nat) (counts : Level → Nat) : String :=
  s!"Found {total} messages ({counts .information} information, " ++
    s!"{counts .warning} warning, {counts .error} error)"

theorem lintStatus_eq_one_iff {failOn : Level} {ms : List Message} :
    lintStatus failOn ms = 1 ↔ ∃ m ∈ ms, failOn.rank ≤ m.level.rank := by
  unfold lintStatus Level.reaches
  simp

theorem lintStatus_le_one (failOn : Level) (ms : List Message) : lintStatus failOn ms ≤ 1 := by
  unfold lintStatus
  split
  · exact Nat.le_refl 1
  · exact Nat.zero_le 1

/-- Every message has one of the three levels. -/
theorem counts_add (ms : List Message) :
    ms.countP (·.level == .information) + ms.countP (·.level == .warning) +
      ms.countP (·.level == .error) = ms.length := by
  induction ms with
  | nil => rfl
  | cons m ms ih =>
    rw [List.length_cons, List.countP_cons, List.countP_cons, List.countP_cons, ← ih]
    cases m.level with
    | information => simp; omega
    | warning => simp; omega
    | error => simp; omega

theorem countLine_eq (ms : List Message) :
    countLine ms = countedLine ms.length fun l => ms.countP (·.level == l) := by
  unfold countLine countedLine
  simp only [summarize, Level.all, Level.word, listNames, List.map_cons, List.map_nil]
  rw [← String.toList_inj]
  simp [String.toList_append, toString]

section Runs

variable {a a' : Arguments} {env env' : Environment} {t t' : FileTree} {s s' : Settings}
  {d : Database} {rules rules' : List Rule}

theorem Linting.run [Yaml.Library] (h : Linting a env t s d rules) :
    ∃ log, runCommand a env t =
      if showsUnwritable rules d.tables then .error .unwritable
      else .ok {
        status := lintStatus s.failOn (SchemaAudit.lint rules d)
        output := unlines ((SchemaAudit.lint rules d).map Message.display ++
          [countLine (SchemaAudit.lint rules d)])
        log
        files := t } := by
  unfold runCommand
  rw [h.command]
  dsimp only [lint]
  rw [h.gathered]
  dsimp only
  rw [h.loaded]
  dsimp only
  rw [h.built]
  dsimp only
  rw [report_eq]
  cases showsUnwritable rules d.tables with
  | true => exact ⟨[], rfl⟩
  | false => exact ⟨_, rfl⟩

theorem Linting.run_of_unwritable [Yaml.Library] (h : Linting a env t s d rules)
    (hshows : showsUnwritable rules d.tables = true) : runCommand a env t = .error .unwritable := by
  obtain ⟨log, hrun⟩ := h.run
  rw [hrun, if_pos hshows]

/-- What a run says that ends with an outcome. -/
theorem Linting.outcome_spec [Yaml.Library] (h : Linting a env t s d rules) {o : Outcome}
    (ho : runCommand a env t = .ok o) :
    showsUnwritable rules d.tables = false ∧
      o.status = lintStatus s.failOn (SchemaAudit.lint rules d) ∧
      o.output = unlines ((SchemaAudit.lint rules d).map Message.display ++
        [countLine (SchemaAudit.lint rules d)]) ∧
      o.refusal = none := by
  obtain ⟨log, hrun⟩ := h.run
  rw [hrun] at ho
  split at ho
  · cases ho
  · next hshows =>
    obtain rfl := Except.ok.inj ho
    exact ⟨Bool.eq_false_iff.mpr hshows, rfl, rfl, rfl⟩

theorem Linting.exists_outcome [Yaml.Library] (h : Linting a env t s d rules)
    (hshows : showsUnwritable rules d.tables = false) :
    ∃ o, runCommand a env t = .ok o ∧
      o.status = lintStatus s.failOn (SchemaAudit.lint rules d) := by
  obtain ⟨log, hrun⟩ := h.run
  rw [hrun, if_neg (by simp [hshows])]
  exact ⟨_, rfl, rfl⟩

/-! ### Two runs -/

/-- Where one run ends with an outcome, another one does that turns off the same rules or more. -/
theorem exists_outcome_of_enabled [Yaml.Library] (h : Linting a env t s d rules)
    (h' : Linting a' env' t' s' d rules') (hlimit : s.maxColumns = s'.maxColumns)
    (hoff : ∀ k, s.selection.Disables k → s'.selection.Disables k)
    (hshows : showsUnwritable rules d.tables = false) :
    ∃ o', runCommand a' env' t' = .ok o' ∧
      o'.status = lintStatus s'.failOn (SchemaAudit.lint rules' d) := by
  refine h'.exists_outcome (showsUnwritable_of_inspections (fun r' hr' => ?_) hshows)
  obtain ⟨hon, -⟩ := Selection.rule_of_mem h'.built hr'
  obtain ⟨r, hr, hagrees⟩ := exists_counterpart hlimit h'.built h.built hr'
    fun hdisabled => hon (hoff _ hdisabled)
  exact ⟨r, hr, hagrees.inspection.symm⟩

/-- A message that makes one run fail has a counterpart that makes a stricter one fail. -/
theorem lintStatus_le_of_tightened [Yaml.Library] (h : Linting a env t s d rules)
    (h' : Linting a' env' t' s' d rules') (hs : s.Tightened s') :
    lintStatus s.failOn (SchemaAudit.lint rules d) ≤
      lintStatus s'.failOn (SchemaAudit.lint rules' d) := by
  by_cases hone : lintStatus s.failOn (SchemaAudit.lint rules d) = 1
  · obtain ⟨m, hm, hreaches⟩ := lintStatus_eq_one_iff.mp hone
    obtain ⟨m', hm', hlevel⟩ := exists_message_of_tightened hs h.built h'.built hm
    have hone' : lintStatus s'.failOn (SchemaAudit.lint rules' d) = 1 := by
      refine lintStatus_eq_one_iff.mpr ⟨m', hm', ?_⟩
      have hfailOn := hs.failOn
      omega
    rw [hone, hone']
  · have hle := lintStatus_le_one s.failOn (SchemaAudit.lint rules d)
    omega

/-- How a run of `lint` ends that gets as far as its rules. -/
structure GateEnds [Yaml.Library] (a : Arguments) (env : Environment) (t : FileTree) (s : Settings)
    (d : Database) (rules : List Rule) : Prop where
  /-- The run ends with an outcome, unless a rule shows a name that cannot be written. -/
  completes : (∃ o, runCommand a env t = .ok o) ↔ showsUnwritable rules d.tables = false
  failure : showsUnwritable rules d.tables = true → runCommand a env t = .error .unwritable
  /-- The status is 1 if a message reaches the threshold, and 0 otherwise. -/
  status : ∀ o, runCommand a env t = .ok o →
    (o.status = 1 ↔ ∃ m ∈ SchemaAudit.lint rules d, s.failOn.rank ≤ m.level.rank) ∧
    (o.status = 0 ↔ ∀ m ∈ SchemaAudit.lint rules d, m.level.rank < s.failOn.rank)
  /-- The output shows the messages and then how many there are, in all and at each level. -/
  counts : ∀ o, runCommand a env t = .ok o → ∃ counts : Level → Nat,
    o.output = unlines ((SchemaAudit.lint rules d).map Message.display ++
      [countedLine (SchemaAudit.lint rules d).length counts]) ∧
    (∀ l, counts l = (SchemaAudit.lint rules d).countP (·.level == l)) ∧
    counts .information + counts .warning + counts .error = (SchemaAudit.lint rules d).length
  /-- Stricter settings do not turn the status to 0, if the same rules are on. -/
  stricter : ∀ a' env' t' s' rules', Linting a' env' t' s' d rules' → s.Tightened s' →
    (∀ k, s.selection.Disables k → s'.selection.Disables k) →
      ∀ o, runCommand a env t = .ok o → ∃ o', runCommand a' env' t' = .ok o' ∧
        o.status ≤ o'.status
  /-- Laxer settings do not turn the status to 1, whichever rules are turned off besides. -/
  laxer : ∀ a' env' t' s' rules', Linting a' env' t' s' d rules' → s'.Tightened s →
    ∀ o, runCommand a env t = .ok o → ∃ o', runCommand a' env' t' = .ok o' ∧
      o'.status ≤ o.status

/-- **The gate.** A run of `lint` that gets as far as its rules ends with status 1 exactly if one of
their messages reaches the threshold, and with status 0 otherwise, and the counts that it shows add
up; only a name that cannot be written makes it fail. A second run over the same database under
settings as strict or stricter does not end with status 0 where the first one ends with status 1. -/
theorem lint_gate [Yaml.Library] (h : Linting a env t s d rules) :
    GateEnds a env t s d rules where
  completes := by
    constructor
    · rintro ⟨o, ho⟩
      exact (h.outcome_spec ho).1
    · intro hshows
      obtain ⟨o, ho, -⟩ := h.exists_outcome hshows
      exact ⟨o, ho⟩
  failure := h.run_of_unwritable
  status o ho := by
    obtain ⟨-, hstatus, -⟩ := h.outcome_spec ho
    have hone : o.status = 1 ↔ ∃ m ∈ SchemaAudit.lint rules d, s.failOn.rank ≤ m.level.rank :=
      hstatus ▸ lintStatus_eq_one_iff
    have hle := lintStatus_le_one s.failOn (SchemaAudit.lint rules d)
    have hzero : o.status = 0 ↔ ¬ o.status = 1 := by
      omega
    refine ⟨hone, ?_⟩
    rw [hzero, hone]
    simp
  counts o ho := by
    obtain ⟨-, -, houtput, -⟩ := h.outcome_spec ho
    rw [countLine_eq] at houtput
    exact ⟨_, houtput, fun _ => rfl, counts_add _⟩
  stricter a' env' t' s' rules' h' hs hoff o ho := by
    obtain ⟨hshows, hstatus, -⟩ := h.outcome_spec ho
    obtain ⟨o', ho', hstatus'⟩ := exists_outcome_of_enabled h h' hs.limit.symm hoff hshows
    refine ⟨o', ho', ?_⟩
    rw [hstatus, hstatus']
    exact lintStatus_le_of_tightened h h' hs
  laxer a' env' t' s' rules' h' hs o ho := by
    obtain ⟨hshows, hstatus, -⟩ := h.outcome_spec ho
    obtain ⟨o', ho', hstatus'⟩ := exists_outcome_of_enabled h h' hs.limit hs.enabled hshows
    refine ⟨o', ho', ?_⟩
    rw [hstatus, hstatus']
    exact lintStatus_le_of_tightened h' h hs

end Runs

/-! ### Parcels -/

/-- A snapshot of parcels in a file, with an index of the given name. -/
def parcels (index : Doc) : FileTree :=
  ⟨[({ names := ["schema.yaml"] }, .file (.document (Snapshot.staff [Snapshot.parcel index])))]⟩

/-- A run with a threshold. -/
def lintParcels (failOn : String) : Arguments :=
  { command := .lint, failOn := some failOn }

/-- The rules are off that find something else in the table than the index. -/
def parcelVariables : Environment :=
  [("SCHEMALINT_DISABLED_RULES", "orphaned_table,candidate_key_missing,SCHEMATIC0012")]

/-- There is one message, a warning. It reaches the threshold of one of the two runs. -/
theorem parcels_gate :
    ∃ d, ∀ failOn ∈ ["warning", "error"], ∃ s rules,
      Linting (lintParcels failOn) parcelVariables (parcels (.text "by_weight")) s d rules ∧
        GateEnds (lintParcels failOn) parcelVariables (parcels (.text "by_weight")) s d rules ∧
        ∃ o, runCommand (lintParcels failOn) parcelVariables (parcels (.text "by_weight")) = .ok o ∧
          (o.status = 1 ↔ failOn = "warning") := by
  have hruns : ∃ d, Snapshot.load (parcels (.text "by_weight")) ({} : Settings).schemaPath = .ok d ∧
      ∀ failOn ∈ ["warning", "error"], ∃ s,
        Settings.gather (parcels (.text "by_weight")) parcelVariables
          (lintParcels failOn).explicit = .ok s ∧
        s.schemaPath = ({} : Settings).schemaPath ∧
        ∃ rules, s.selection.build d.reservedKeywords = .ok rules ∧
          showsUnwritable rules d.tables = false ∧
          ((∃ m ∈ SchemaAudit.lint rules d, s.failOn.rank ≤ m.level.rank) ↔
            failOn = "warning") := by
    decide +kernel
  obtain ⟨d, hd, hruns⟩ := hruns
  refine ⟨d, fun failOn hmem => ?_⟩
  obtain ⟨s, hs, hpath, rules, hrules, hshows, hreached⟩ := hruns failOn hmem
  have hlinting : Linting (lintParcels failOn) parcelVariables (parcels (.text "by_weight")) s d
      rules := ⟨rfl, hs, hpath ▸ hd, hrules⟩
  have hends := lint_gate hlinting
  obtain ⟨o, ho⟩ := hends.completes.mpr hshows
  exact ⟨s, rules, hlinting, hends, o, ho, (hends.status o ho).1.trans hreached⟩

/-- No message reaches the threshold, and still the run does not end with status 0: it cannot write
the name of the index. -/
theorem parcels_unwritable : ∃ s d rules,
    Linting (lintParcels "error") parcelVariables (parcels (.int Snapshot.longNumber)) s d rules ∧
      (∀ m ∈ SchemaAudit.lint rules d, m.level.rank < s.failOn.rank) ∧
      runCommand (lintParcels "error") parcelVariables (parcels (.int Snapshot.longNumber)) =
        .error .unwritable := by
  have hrun : ∃ s, Settings.gather (parcels (.int Snapshot.longNumber)) parcelVariables
        (lintParcels "error").explicit = .ok s ∧
      ∃ d, Snapshot.load (parcels (.int Snapshot.longNumber)) s.schemaPath = .ok d ∧
        ∃ rules, s.selection.build d.reservedKeywords = .ok rules ∧
          (∀ m ∈ SchemaAudit.lint rules d, m.level.rank < s.failOn.rank) ∧
          ∃ r ∈ rules, ∃ t ∈ d.tables, .int Snapshot.longNumber ∈ r.inspection.shownNames t := by
    decide +kernel
  obtain ⟨s, hs, d, hd, rules, hrules, hbelow, r, hr, t, ht, hshown⟩ := hrun
  have hlinting : Linting (lintParcels "error") parcelVariables
      (parcels (.int Snapshot.longNumber)) s d rules := ⟨rfl, hs, hd, hrules⟩
  have hshows := showsUnwritable_of_mem hr ht hshown Snapshot.longNumber_unwritable
  exact ⟨s, d, rules, hlinting, hbelow, hlinting.run_of_unwritable hshows⟩

end CommandLine

end SchemaAudit
