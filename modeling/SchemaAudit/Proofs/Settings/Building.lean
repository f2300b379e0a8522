import SchemaAudit.CommandLine.Run
import SchemaAudit.Proofs.Settings.Rules
import SchemaAudit.Proofs.Yaml.Library

/-!
# How the making of rules ends

What the settings say is checked in two steps. Levels and the limit for the number of columns are
checked when the settings are gathered, and every value that passes is one with which rules can be
made. Keys that speak of rules are looked up only when the rules are made. A text that is the
spelling of no rule is a fault of the settings; a key that is no text is none, so a run that meets
one first does not end with a fault but fails.

- `RuleKind.Refuses`: the answer to a key that is the spelling of no rule.
- `FirstUnnamed`: the key that decides.
- `build_eq_error_iff`: nothing but such a key keeps the rules from being made.
- `build_ends`: how the making of rules ends, and a run with it.
-/

namespace SchemaAudit

/-! ### Keys of no rule -/

namespace RuleKind

/-- The fault of a text that is the spelling of no rule. It lists the names of all rules. -/
def unknown (name : String) : Failure :=
  .settings (.unknownRule name (Text.sorted (all.map RuleKind.name)))

/-- How a key is answered that is the spelling of no rule. -/
inductive Refuses : Doc → Failure → Prop where
  /-- A text is told in a fault of the settings. -/
  | text {s : String} (hs : ¬ IsSpelling (.text s)) : Refuses (.text s) (unknown s)
  /-- Any other value without parts has no capital form. -/
  | atom {key : Doc} (htext : ∀ s, key ≠ .text s) (hatom : key.isAtom = true) :
    Refuses key .wrongKind
  /-- A value with parts cannot be looked up at all. -/
  | parts {key : Doc} (hatom : key.isAtom = false) : Refuses key .wrongShape

theorem Refuses.not_isSpelling {key : Doc} {f : Failure} (h : Refuses key f) :
    ¬ IsSpelling key := by
  cases h with
  | text hs => exact hs
  | atom htext _ =>
    rintro ⟨k, s, rfl, -⟩
    exact htext s rfl
  | parts hatom =>
    rintro ⟨k, s, rfl, -⟩
    cases hatom

theorem Refuses.unique {key : Doc} {f g : Failure} (hf : Refuses key f) (hg : Refuses key g) :
    f = g := by
  cases hf with
  | text =>
    cases hg with
    | text => rfl
    | atom htext => exact absurd rfl (htext _)
    | parts hatom => cases hatom
  | atom htext hatom =>
    cases hg with
    | text => exact absurd rfl (htext _)
    | atom => rfl
    | parts hparts => cases hatom.symm.trans hparts
  | parts hparts =>
    cases hg with
    | text => cases hparts
    | atom _ hatom => cases hatom.symm.trans hparts
    | parts => rfl

theorem refuses_of_resolve {key : Doc} {f : Failure} (h : resolve key = .error f) :
    Refuses key f := by
  have hspelling : ¬ IsSpelling key := by
    intro hkey
    obtain ⟨k, hk⟩ := accepted_resolve_iff.mpr hkey
    cases hk.symm.trans h
  cases key with
  | text s =>
    have hf : unknown s = f := by
      rw [resolve] at h
      split at h
      · cases h
      · split at h
        · cases h
        · exact Except.error.inj h
    exact hf ▸ .text hspelling
  | list ds => exact Except.error.inj h ▸ .parts rfl
  | map es => exact Except.error.inj h ▸ .parts rfl
  | _ =>
    obtain rfl := Except.error.inj h
    refine .atom ?_ rfl
    intro s hs
    cases hs

theorem resolve_eq_error_iff {key : Doc} {f : Failure} :
    resolve key = .error f ↔ Refuses key f := by
  refine ⟨refuses_of_resolve, fun h => ?_⟩
  cases hresolve : resolve key with
  | ok k => exact absurd (accepted_resolve_iff.mp ⟨k, hresolve⟩) h.not_isSpelling
  | error g => rw [(refuses_of_resolve hresolve).unique h]

end RuleKind

/-- The first of some keys that is the spelling of no rule. -/
def FirstUnnamed (keys : List Doc) (key : Doc) : Prop :=
  ¬ RuleKind.IsSpelling key ∧ ∃ before after,
    keys = before ++ key :: after ∧ ∀ b ∈ before, RuleKind.IsSpelling b

theorem FirstUnnamed.mem {keys : List Doc} {key : Doc} (h : FirstUnnamed keys key) :
    key ∈ keys := by
  obtain ⟨-, before, after, rfl, -⟩ := h
  exact List.mem_append_right before List.mem_cons_self

theorem mapM_resolve_eq_error_iff {keys : List Doc} {f : Failure} :
    keys.mapM RuleKind.resolve = .error f ↔
      ∃ key, FirstUnnamed keys key ∧ RuleKind.Refuses key f := by
  rw [mapM_eq_error_iff]
  simp only [RuleKind.accepted_resolve_iff, RuleKind.resolve_eq_error_iff]
  constructor
  · rintro ⟨before, key, after, hkeys, hbefore, hkey⟩
    exact ⟨key, ⟨hkey.not_isSpelling, before, after, hkeys, hbefore⟩, hkey⟩
  · rintro ⟨key, ⟨-, before, after, hkeys, hbefore⟩, hkey⟩
    exact ⟨before, key, after, hkeys, hbefore, hkey⟩

/-! ### Values with which rules can be made -/

theorem accepted_readRuleKeywords (keywords : List String) :
    Accepted (readRuleKeywords (.list (keywords.map .text))) := by
  unfold readRuleKeywords
  rw [if_neg nofun]
  dsimp only [Doc.items?]
  refine accepted_bind_ok_iff.mpr (accepted_mapM_iff.mpr ?_)
  intro d hd
  obtain ⟨s, -, rfl⟩ := List.mem_map.mp hd
  exact ⟨s, rfl⟩

/-- Every inspection can be made with a positive limit and with keywords that are texts. -/
theorem accepted_makeInspection {n : Int} (hn : 0 < n) (kind : RuleKind)
    (keywords : List String) :
    Accepted (makeInspection kind (.int n) (.list (keywords.map .text))) := by
  cases kind with
  | reservedKeywordName =>
    obtain ⟨texts, htexts⟩ := accepted_readRuleKeywords keywords
    refine ⟨.reservedKeywordName texts, ?_⟩
    dsimp only [makeInspection]
    rw [htexts]
    rfl
  | tooManyColumns =>
    refine ⟨.tooManyColumns n, ?_⟩
    dsimp only [makeInspection, readColumnLimit]
    rw [if_pos hn]
    rfl
  | _ => exact ⟨_, rfl⟩

namespace Settings

variable {t : FileTree} {env : Environment} {explicit : Explicit} {s : Settings}

theorem readLimit_pos {source : String} {d : Doc} {n : Int} (h : readLimit source d = .ok n) :
    0 < n := by
  obtain ⟨m, -, h⟩ := bind_eq_ok_iff.mp h
  split at h
  · next hpos => exact Except.ok.inj h ▸ hpos
  · cases h

theorem readField_spec {α : Type} {d : Doc} {name : String} {read : Doc → Except Failure α} {a : α}
    {p : α → Prop} (hread : ∀ d b, read d = .ok b → p b)
    (h : readField d name read = .ok (some a)) : p a := by
  unfold readField at h
  split at h
  · next value _ =>
    cases hvalue : read value with
    | error f =>
      rw [hvalue] at h
      cases h
    | ok b =>
      rw [hvalue] at h
      obtain rfl := Option.some.inj (Except.ok.inj h)
      exact hread value b hvalue
  · cases h

/-- What holds of all values that are read, and of the one that is there otherwise, holds of a
setting. -/
theorem resolve_spec {α : Type} {read : Doc → Except Failure α} {given : Doc}
    {text : Option String} {otherwise a : α} {p : α → Prop} (hread : ∀ d b, read d = .ok b → p b)
    (hotherwise : p otherwise) (h : resolve read given text otherwise = .ok a) : p a := by
  unfold resolve at h
  split at h
  · split at h
    · exact hread _ _ h
    · exact Except.ok.inj h ▸ hotherwise
  · exact hread _ _ h

/-- The limit with which a run starts is positive, wherever it comes from. -/
theorem limit_pos_of_gather [Yaml.Library] (h : gather t env explicit = .ok s) :
    0 < s.maxColumns := by
  simp only [gather, bind_eq_ok_iff, Except.ok.injEq] at h
  obtain ⟨file, hfile, -, -, -, -, limit, hlimit, rfl⟩ := h
  refine resolve_spec (fun d n hn => readLimit_pos hn) ?_ hlimit
  cases hn : file.maxColumns with
  | none => decide
  | some n =>
    obtain ⟨d, -, hread⟩ := fileSettings_spec hfile
    exact readField_spec (fun _ _ => readLimit_pos) (hn ▸ hread.maxColumns)

/-- With the settings of a run, every rule that is left on can be made. -/
theorem accepted_mapM_make [Yaml.Library] (hs : gather t env explicit = .ok s)
    (keywords : List String) : Accepted (s.selection.enabled.mapM (s.selection.make keywords)) := by
  refine accepted_mapM_iff.mpr fun k _ => accepted_bind_ok_iff.mpr ?_
  exact accepted_makeInspection (limit_pos_of_gather hs) k keywords

theorem accepted_build_iff [Yaml.Library] (hs : gather t env explicit = .ok s)
    {keywords : List String} :
    Accepted (s.selection.build keywords) ↔
      ∀ key ∈ s.selection.keys, RuleKind.IsSpelling key := by
  obtain ⟨rules, hrules⟩ := accepted_mapM_make hs keywords
  rw [Selection.build_eq, hrules, accepted_bind_ok_iff, accepted_mapM_iff]
  simp only [RuleKind.accepted_resolve_iff]

/-- Nothing but a key that is the spelling of no rule keeps the rules from being made. -/
theorem build_eq_error_iff [Yaml.Library] (hs : gather t env explicit = .ok s)
    {keywords : List String} {f : Failure} :
    s.selection.build keywords = .error f ↔
      ∃ key, FirstUnnamed s.selection.keys key ∧ RuleKind.Refuses key f := by
  rw [Selection.build_eq, bind_eq_error_iff fun _ => accepted_mapM_make hs keywords,
    mapM_resolve_eq_error_iff]

/-! ### Keys of a run -/

theorem eq_text_of_sameKey {key : Doc} {s : String} (h : Doc.sameKey key (.text s) = true) :
    key = .text s := by
  cases key with
  | _ => exact eq_of_beq h

/-- A text stands for nothing but itself, so no key that is the spelling of no rule is passed over.
-/
theorem forall_mem_distinctKeys_iff {keys : List Doc} :
    (∀ key ∈ distinctKeys keys, RuleKind.IsSpelling key) ↔
      ∀ key ∈ keys, RuleKind.IsSpelling key := by
  refine ⟨fun h key hkey => ?_, fun h key hkey => h key (mem_of_mem_distinctKeys hkey)⟩
  obtain ⟨kept, hkept, rfl | hsame⟩ := exists_mem_distinctKeys hkey
  · exact h kept hkept
  · obtain ⟨k, s, rfl, hs⟩ := h kept hkept
    exact eq_text_of_sameKey hsame ▸ ⟨k, s, rfl, hs⟩

/-- The keys that speak of rules in the entries of a settings file and in a variable: first those
with a level, then those of rules that are off. -/
def ruleKeys (entries : List (Doc × Doc)) (off : List Doc) : List Doc :=
  (entries.filter fun e => !isOff e.2).map (·.1) ++ distinctKeys (offNames entries ++ off)

theorem mem_of_mem_ruleKeys {entries : List (Doc × Doc)} {off : List Doc} {key : Doc}
    (h : key ∈ ruleKeys entries off) : (∃ e ∈ entries, e.1 = key) ∨ key ∈ off := by
  have hentry {p : Doc × Doc → Bool} (hkey : key ∈ (entries.filter p).map (·.1)) :
      ∃ e ∈ entries, e.1 = key := by
    obtain ⟨e, he, rfl⟩ := List.mem_map.mp hkey
    exact ⟨e, List.mem_of_mem_filter he, rfl⟩
  rcases List.mem_append.mp h with hkey | hkey
  · exact .inl (hentry hkey)
  · exact (List.mem_append.mp (mem_of_mem_distinctKeys hkey)).imp_left hentry

theorem forall_mem_ruleKeys_iff {entries : List (Doc × Doc)} {off : List Doc} :
    (∀ key ∈ ruleKeys entries off, RuleKind.IsSpelling key) ↔
      (∀ e ∈ entries, RuleKind.IsSpelling e.1) ∧ ∀ key ∈ off, RuleKind.IsSpelling key := by
  unfold ruleKeys offNames
  rw [List.forall_mem_append, forall_mem_distinctKeys_iff, List.forall_mem_append, ← and_assoc]
  refine and_congr_left fun _ => ?_
  -- every entry has a level or is off
  simp only [List.forall_mem_map, List.mem_filter]
  constructor
  · rintro ⟨hlevel, hoff⟩ e he
    cases hvalue : isOff e.2 with
    | true => exact hoff e ⟨he, hvalue⟩
    | false => exact hlevel e ⟨he, by rw [hvalue]; rfl⟩
  · exact fun h => ⟨fun e he => h e he.1, fun e he => h e he.1⟩

/-- A run resolves the keys of the settings file and of the variable. -/
theorem keys_of_gather [Yaml.Library] (hs : gather t env explicit = .ok s) :
    ∃ d, fileDocument t env explicit = .ok d ∧
      s.selection.keys = ruleKeys (d.get "rules").entries (offVariable env) := by
  obtain ⟨file, hfile, hlevels, hdisabled⟩ := gather_spec hs
  obtain ⟨d, hd, hread⟩ := fileSettings_spec hfile
  refine ⟨d, hd, ?_⟩
  have hkeys : ((d.get "rules").entries.filter fun e => !isOff e.2).map (·.1) =
      file.levels.map (·.1) := by
    rw [← List.forall₂_eq_eq_eq, List.forall₂_map_left_iff, List.forall₂_map_right_iff]
    exact (readLevels_spec hread.levels).imp fun _ _ h => h.1.symm
  rw [Selection.keys, hlevels, hdisabled, hread.disabled, ← hkeys, ruleKeys]

theorem eq_text_of_mem_offVariable {key : Doc} (h : key ∈ offVariable env) :
    ∃ s, key = .text s := by
  unfold offVariable at h
  split at h
  · obtain ⟨s, -, rfl⟩ := List.mem_map.mp h
    exact ⟨s, rfl⟩
  · exact absurd h List.not_mem_nil

/-- No key in a settings file that is a text has parts. -/
theorem isAtom_of_mem_entries [Yaml.Library] [Yaml.LawfulLibrary] {d : Doc} {e : Doc × Doc}
    (htext : ∀ p d, configFile? env explicit = some p → t.find? p ≠ some (.file (.document d)))
    (hd : fileDocument t env explicit = .ok d) (he : e ∈ (d.get "rules").entries) :
    e.1.isAtom = true := by
  have hatoms : d.KeyedByAtoms := by
    unfold fileDocument at hd
    split at hd
    · exact Except.ok.inj hd ▸ Doc.keyedByAtoms_of_isAtom rfl
    · next p hp =>
      split at hd
      · next content hcontent =>
        cases content with
        | document d' => exact absurd hcontent (htext p d' hp)
        | undecodable => cases hd
        | text text => exact Yaml.LawfulLibrary.keys _ _ (mapError_eq_ok_iff.mp hd)
      · cases hd
  exact hatoms.of_mem_entries he

/-! ### Runs of the command line -/

/-- A run whose rules cannot be made is refused. -/
theorem runCommand_of_build_error [Yaml.Library] {a : CommandLine.Arguments} {db : Database}
    {f : Failure} (hlint : a.command = .lint) (hs : gather t env a.explicit = .ok s)
    (hload : Snapshot.load t s.schemaPath = .ok db)
    (hbuild : s.selection.build db.reservedKeywords = .error f) :
    ∃ notes, CommandLine.runCommand a env t = CommandLine.refuse t notes f := by
  unfold CommandLine.runCommand
  rw [hlint]
  dsimp only [CommandLine.lint]
  rw [hs]
  dsimp only
  rw [hload]
  dsimp only
  rw [hbuild]
  exact ⟨_, rfl⟩

/-- How the making of rules ends in a run with the settings `s`, whose settings file has the given
entries about rules. -/
structure BuildEnds [Yaml.Library] (t : FileTree) (env : Environment) (explicit : Explicit)
    (s : Settings) (entries : List (Doc × Doc)) : Prop where
  /-- Rules are made if and only if all keys are spellings of rules. -/
  made : ∀ keywords, Accepted (s.selection.build keywords) ↔
    (∀ e ∈ entries, RuleKind.IsSpelling e.1) ∧ ∀ key ∈ offVariable env, RuleKind.IsSpelling key
  /-- Otherwise the first key that is none decides. -/
  refused : ∀ keywords f, s.selection.build keywords = .error f ↔
    ∃ key, FirstUnnamed (ruleKeys entries (offVariable env)) key ∧ RuleKind.Refuses key f
  /-- This is a fault of the settings where all keys of the file are texts. -/
  fault : (∀ e ∈ entries, ∃ name, e.1 = .text name) → ∀ keywords f,
    s.selection.build keywords = .error f → ∃ name, f = RuleKind.unknown name
  /-- Where the file is a text, one other failure is possible. -/
  failures : (∀ p d, configFile? env explicit = some p → t.find? p ≠ some (.file (.document d))) →
    ∀ keywords f, s.selection.build keywords = .error f →
      (∃ name, f = RuleKind.unknown name) ∨ f = .wrongKind
  /-- A run ends with status 2 for the fault, and fails with every other failure. -/
  run : ∀ (a : CommandLine.Arguments) db f, a.command = .lint → a.explicit = explicit →
    Snapshot.load t s.schemaPath = .ok db → s.selection.build db.reservedKeywords = .error f →
    (∃ name outcome, f = RuleKind.unknown name ∧
      CommandLine.runCommand a env t = .ok outcome ∧ outcome.status = 2 ∧
      outcome.refusal = some f) ∨
    ((∀ fault, f ≠ .settings fault) ∧ CommandLine.runCommand a env t = .error f)

/-- **How the making of rules ends.** Every value with which a run starts is one with which rules
can be made, except for keys that are no spellings of rules. If the first of these is a text, then
the run is refused with a fault of the settings; if it is not, then the run fails. -/
theorem build_ends [Yaml.Library] [Yaml.LawfulLibrary] (hs : gather t env explicit = .ok s) :
    ∃ d, fileDocument t env explicit = .ok d ∧
      BuildEnds t env explicit s (d.get "rules").entries := by
  obtain ⟨d, hd, hkeys⟩ := keys_of_gather hs
  have hrefused : ∀ keywords f, s.selection.build keywords = .error f ↔
      ∃ key, FirstUnnamed (ruleKeys (d.get "rules").entries (offVariable env)) key ∧
        RuleKind.Refuses key f := fun keywords f => by
    rw [build_eq_error_iff hs, hkeys]
  refine ⟨d, hd, ?_, hrefused, ?_, ?_, ?_⟩
  · intro keywords
    rw [accepted_build_iff hs, hkeys, forall_mem_ruleKeys_iff]
  · intro htexts keywords f h
    obtain ⟨key, hfirst, hkey⟩ := (hrefused keywords f).mp h
    have htext : ∃ name, key = .text name := by
      rcases mem_of_mem_ruleKeys hfirst.mem with ⟨e, he, rfl⟩ | hoff
      · exact htexts e he
      · exact eq_text_of_mem_offVariable hoff
    obtain ⟨name, rfl⟩ := htext
    exact ⟨name, hkey.unique (.text hkey.not_isSpelling)⟩
  · intro htext keywords f h
    obtain ⟨key, hfirst, hkey⟩ := (hrefused keywords f).mp h
    have hatom : key.isAtom = true := by
      rcases mem_of_mem_ruleKeys hfirst.mem with ⟨e, he, rfl⟩ | hoff
      · exact isAtom_of_mem_entries htext hd he
      · obtain ⟨name, rfl⟩ := eq_text_of_mem_offVariable hoff
        rfl
    cases hkey with
    | text => exact .inl ⟨_, rfl⟩
    | atom => exact .inr rfl
    | parts hparts => cases hatom.symm.trans hparts
  · rintro a db f hlint rfl hload hbuild
    obtain ⟨key, -, hkey⟩ := (hrefused _ f).mp hbuild
    obtain ⟨notes, hrun⟩ := runCommand_of_build_error hlint hs hload hbuild
    rw [hrun]
    cases hkey with
    | text => exact .inl ⟨_, _, rfl, rfl, rfl, rfl⟩
    | atom => exact .inr ⟨nofun, rfl⟩
    | parts => exact .inr ⟨nofun, rfl⟩

/-! ### Rules by number -/

/-- A settings file that turns a rule off, and a snapshot without tables. -/
def turnsOff (key : String) : FileTree :=
  ⟨[({ names := ["rules.yaml"] }, .file (.text ("rules:\n  " ++ key ++ ": off\n"))),
    ({ names := ["schema.yaml"] }, .file (.text "tables: []\n"))]⟩

/-- The arguments of a run with this settings file. -/
def lintWithRules : CommandLine.Arguments :=
  { command := .lint, config := some "rules.yaml" }

/-- The number 8 is no text, and no fault of the settings: the settings are gathered, and then the
run fails. -/
theorem turnsOff_number :
    ∃ s, gather (turnsOff "8") [] lintWithRules.explicit = .ok s ∧
      s.selection.build [] = .error .wrongKind ∧
      CommandLine.runCommand lintWithRules [] (turnsOff "8") = .error .wrongKind := by
  have hbuild : ∃ s, gather (turnsOff "8") [] lintWithRules.explicit = .ok s ∧
      s.selection.build [] = .error .wrongKind ∧
      Snapshot.load (turnsOff "8") s.schemaPath = .ok {} := by
    decide +kernel
  obtain ⟨s, hs, hbuild, hload⟩ := hbuild
  obtain ⟨notes, hrun⟩ := runCommand_of_build_error rfl hs hload hbuild
  exact ⟨s, hs, hbuild, hrun⟩

/-- The text of the same digit is one, and ends the run with status 2. -/
theorem turnsOff_text :
    ∃ s, gather (turnsOff "'8'") [] lintWithRules.explicit = .ok s ∧
      (∃ d, fileDocument (turnsOff "'8'") [] lintWithRules.explicit = .ok d ∧
        BuildEnds (turnsOff "'8'") [] lintWithRules.explicit s (d.get "rules").entries) ∧
      ∃ outcome, CommandLine.runCommand lintWithRules [] (turnsOff "'8'") = .ok outcome ∧
        outcome.status = 2 ∧ outcome.refusal = some (RuleKind.unknown "8") := by
  have hbuild : ∃ s, gather (turnsOff "'8'") [] lintWithRules.explicit = .ok s ∧
      s.selection.build [] = .error (RuleKind.unknown "8") ∧
      Snapshot.load (turnsOff "'8'") s.schemaPath = .ok {} := by
    decide +kernel
  obtain ⟨s, hs, hbuild, hload⟩ := hbuild
  obtain ⟨d, hd, hends⟩ := build_ends hs
  refine ⟨s, hs, ⟨d, hd, hends⟩, ?_⟩
  rcases hends.run lintWithRules {} _ rfl rfl hload hbuild with
    ⟨-, outcome, -, hrun, hstatus, hrefusal⟩ | ⟨hother, -⟩
  · exact ⟨outcome, hrun, hstatus, hrefusal⟩
  · exact absurd rfl (hother _)

end Settings

end SchemaAudit
