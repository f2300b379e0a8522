import Mathlib.Data.List.Induction
import SchemaAudit.Proofs.Lint.Selection
import SchemaAudit.Settings.Resolve
import SchemaAudit.Yaml.Node

/-!
# Which rules a run applies

What the settings say of a rule is spread over the entries of a file and a variable of the
environment, and each of these may spell the rule in its own way. A rule that is off in one spelling
is off, whatever the others say. The order of the entries matters only among those that give the
same rule a level.

- `Overrides`: an entry gives a rule a level.
- `LevelFrom`: the level of a rule is that of the last such entry, or else the default.
- `ChosenBy`: the rules that are built are those that the settings leave on.
- `build_of_gather`: this holds of all settings with which a run starts.
-/

namespace SchemaAudit.Settings

variable {t : FileTree} {env : Environment} {explicit : Explicit}

/-! ### What the settings file says -/

/-- The document of the settings file, or `null` if there is no file. -/
def fileDocument [Yaml.Library] (t : FileTree) (env : Environment) (explicit : Explicit) :
    Except Failure Doc :=
  match configFile? env explicit with
  | none => .ok .null
  | some p =>
    match t.find? p with
    | some (.file content) => content.read (.settings (.invalidYaml p.text))
    | _ => .error (.settings (.fileMissing p.text))

/-- What is read of a document is what its fields say, and what its entries say of rules. -/
structure DocumentRead (d : Doc) (file : FileSettings) : Prop where
  schemaPath : readField d "schema_path" readPath = .ok file.schemaPath
  level : readField d "level" (readLevel "level") = .ok file.level
  failOn : readField d "fail_on" (readLevel "fail_on") = .ok file.failOn
  maxColumns : readField d "max_columns" (readLimit "max_columns") = .ok file.maxColumns
  levels : readLevels (d.get "rules").entries = .ok file.levels
  disabled : file.disabled = offNames (d.get "rules").entries

theorem readMapping_spec {d : Doc} {file : FileSettings} (h : readMapping d = .ok file) :
    DocumentRead d file := by
  unfold readMapping at h
  obtain ⟨-, -, h⟩ := bind_eq_ok_iff.mp h
  obtain ⟨path, hpath, h⟩ := bind_eq_ok_iff.mp h
  obtain ⟨level, hlevel, h⟩ := bind_eq_ok_iff.mp h
  obtain ⟨failOn, hfailOn, h⟩ := bind_eq_ok_iff.mp h
  obtain ⟨limit, hlimit, h⟩ := bind_eq_ok_iff.mp h
  dsimp only at h
  split at h
  · obtain ⟨_, hrefused, -⟩ := bind_eq_ok_iff.mp h
    cases hrefused
  · obtain ⟨levels, hlevels, h⟩ := bind_eq_ok_iff.mp h
    obtain rfl := Except.ok.inj h
    exact ⟨hpath, hlevel, hfailOn, hlimit, hlevels, rfl⟩

theorem readDocument_eq_ok {p : Path} {d : Doc} {file : FileSettings}
    (h : readDocument p d = .ok file) : d = .null ∧ file = {} ∨ readMapping d = .ok file := by
  unfold readDocument at h
  split at h
  · next hnull => exact .inl ⟨hnull, (Except.ok.inj h).symm⟩
  · split at h
    · exact .inr h
    · cases h

/-- A settings file says nothing, or what its mapping says. -/
theorem fileSettings_eq_ok [Yaml.Library] {file : FileSettings}
    (h : fileSettings t env explicit = .ok file) :
    ∃ d, fileDocument t env explicit = .ok d ∧
      (d = .null ∧ file = {} ∨ readMapping d = .ok file) := by
  unfold fileSettings at h
  unfold fileDocument
  split at h
  · next p hp =>
    rw [hp]
    unfold loadFile at h
    split at h
    · next content hcontent =>
      obtain ⟨d, hd, h⟩ := bind_eq_ok_iff.mp h
      refine ⟨d, ?_, readDocument_eq_ok h⟩
      dsimp only
      rw [hcontent]
      exact hd
    · cases h
  · next hnone =>
    obtain rfl := Except.ok.inj h
    rw [hnone]
    exact ⟨.null, rfl, .inl ⟨rfl, rfl⟩⟩

theorem fileSettings_spec [Yaml.Library] {file : FileSettings}
    (h : fileSettings t env explicit = .ok file) :
    ∃ d, fileDocument t env explicit = .ok d ∧ DocumentRead d file := by
  obtain ⟨d, hd, ⟨rfl, rfl⟩ | hmapping⟩ := fileSettings_eq_ok h
  · exact ⟨.null, hd, rfl, rfl, rfl, rfl, rfl, rfl⟩
  · exact ⟨d, hd, readMapping_spec hmapping⟩

theorem gather_spec [Yaml.Library] {s : Settings} (h : gather t env explicit = .ok s) :
    ∃ file, fileSettings t env explicit = .ok file ∧ s.selection.levels = file.levels ∧
      s.selection.disabled = distinctKeys (file.disabled ++ offVariable env) := by
  simp only [gather, bind_eq_ok_iff, Except.ok.injEq] at h
  obtain ⟨file, hfile, -, -, -, -, -, -, rfl⟩ := h
  exact ⟨file, hfile, rfl, rfl⟩

/-! ### Rules that are off -/

theorem distinctKeys_concat (keys : List Doc) (key : Doc) :
    distinctKeys (keys ++ [key]) =
      if (distinctKeys keys).any (Doc.sameKey key) then distinctKeys keys
      else distinctKeys keys ++ [key] :=
  List.foldl_concat ..

theorem mem_of_mem_distinctKeys {keys : List Doc} {key : Doc} :
    key ∈ distinctKeys keys → key ∈ keys := by
  induction keys using List.reverseRecOn with
  | nil => exact id
  | append_singleton keys last ih =>
    rw [distinctKeys_concat, List.mem_append]
    split
    · exact fun h => .inl (ih h)
    · exact fun h => (List.mem_append.mp h).imp_left ih

/-- A key is among the distinct ones, or another key stands for it there. -/
theorem exists_mem_distinctKeys {keys : List Doc} {key : Doc} (h : key ∈ keys) :
    ∃ kept ∈ distinctKeys keys, kept = key ∨ Doc.sameKey key kept = true := by
  induction keys using List.reverseRecOn with
  | nil => exact absurd h List.not_mem_nil
  | append_singleton keys last ih =>
    rw [distinctKeys_concat]
    rcases List.mem_append.mp h with hkey | hkey
    · obtain ⟨kept, hkept, hsame⟩ := ih hkey
      split
      · exact ⟨kept, hkept, hsame⟩
      · exact ⟨kept, List.mem_append_left _ hkept, hsame⟩
    · obtain rfl := List.mem_singleton.mp hkey
      split
      · next hany =>
        obtain ⟨kept, hkept, hsame⟩ := List.any_eq_true.mp hany
        exact ⟨kept, hkept, .inr hsame⟩
      · exact ⟨key, List.mem_append_right _ (List.mem_singleton_self key), .inl rfl⟩

/-- A text is among the distinct keys if it is among the keys: only for numbers and moments can
another key stand. -/
theorem text_mem_distinctKeys_iff {keys : List Doc} {s : String} :
    .text s ∈ distinctKeys keys ↔ .text s ∈ keys := by
  refine ⟨mem_of_mem_distinctKeys, fun h => ?_⟩
  obtain ⟨kept, hkept, rfl | hsame⟩ := exists_mem_distinctKeys h
  · exact hkept
  · have htext : .text s = kept := eq_of_beq hsame
    exact htext ▸ hkept

/-- A rule is off by an entry of the file or by an item of the variable. -/
theorem exists_disabled_iff {entries : List (Doc × Doc)} {off : List Doc} {k : RuleKind} :
    (∃ key ∈ distinctKeys (offNames entries ++ off), k.NamedBy key) ↔
      (∃ e ∈ entries, k.NamedBy e.1 ∧ isOff e.2 = true) ∨ ∃ key ∈ off, k.NamedBy key := by
  -- a key that names a rule is a text, so no other key stands for it among the distinct ones
  constructor
  · rintro ⟨key, hkey, s, rfl, hs⟩
    rw [text_mem_distinctKeys_iff, List.mem_append, offNames, List.mem_map] at hkey
    rcases hkey with ⟨e, he, hname⟩ | hkey
    · obtain ⟨he, hoff⟩ := List.mem_filter.mp he
      exact .inl ⟨e, he, hname ▸ ⟨s, rfl, hs⟩, hoff⟩
    · exact .inr ⟨_, hkey, s, rfl, hs⟩
  · rintro (⟨⟨key, value⟩, he, ⟨s, rfl, hs⟩, hoff⟩ | ⟨key, hkey, s, rfl, hs⟩)
    · refine ⟨.text s, text_mem_distinctKeys_iff.mpr (List.mem_append_left _ ?_), s, rfl, hs⟩
      exact List.mem_map.mpr ⟨_, List.mem_filter.mpr ⟨he, hoff⟩, rfl⟩
    · exact ⟨.text s, text_mem_distinctKeys_iff.mpr (List.mem_append_right _ hkey), s, rfl, hs⟩

/-! ### Levels -/

/-- An entry gives the rule a level: it names the rule and is not off. -/
def Overrides (k : RuleKind) (e : Doc × Doc) : Prop :=
  k.NamedBy e.1 ∧ isOff e.2 = false

/-- The level is that of the last entry that gives the rule one, and the default if there is none.
-/
def LevelFrom (entries : List (Doc × Doc)) (default : Level) (k : RuleKind) (l : Level) : Prop :=
  (∀ e ∈ entries, ¬ Overrides k e) ∧ l = default ∨
    ∃ before e after, entries = before ++ e :: after ∧ Overrides k e ∧
      Level.ofDoc e.2 = .ok l ∧ ∀ x ∈ after, ¬ Overrides k x

/-- An entry that says nothing of the level of a rule can be left out. -/
theorem LevelFrom.skip {e : Doc × Doc} {entries : List (Doc × Doc)} {default l : Level}
    {k : RuleKind} (he : ¬ Overrides k e) (h : LevelFrom entries default k l) :
    LevelFrom (e :: entries) default k l := by
  rcases h with ⟨hnone, hl⟩ | ⟨before, x, after, rfl, hx⟩
  · exact .inl ⟨List.forall_mem_cons.mpr ⟨he, hnone⟩, hl⟩
  · exact .inr ⟨e :: before, x, after, rfl, hx⟩

/-- The level of an entry is the default for what comes behind it. -/
theorem LevelFrom.override {e : Doc × Doc} {entries : List (Doc × Doc)} {default level l : Level}
    {k : RuleKind} (he : Overrides k e) (hlevel : Level.ofDoc e.2 = .ok level)
    (h : LevelFrom entries level k l) : LevelFrom (e :: entries) default k l := by
  rcases h with ⟨hnone, rfl⟩ | ⟨before, x, after, rfl, hx⟩
  · exact .inr ⟨[], e, entries, rfl, he, hlevel, hnone⟩
  · exact .inr ⟨e :: before, x, after, rfl, hx⟩

theorem readLevel_eq_ok_iff {source : String} {d : Doc} {l : Level} :
    readLevel source d = .ok l ↔ Level.ofDoc d = .ok l := by
  unfold readLevel
  cases Level.ofDoc d with
  | ok l' => simp
  | error f => simp

theorem readLevels_spec {entries : List (Doc × Doc)} {levels : List (Doc × Level)}
    (h : readLevels entries = .ok levels) :
    List.Forall₂ (fun e kl => kl.1 = e.1 ∧ Level.ofDoc e.2 = .ok kl.2)
      (entries.filter fun e => !isOff e.2) levels := by
  refine (mapM_eq_ok_iff.mp h).imp ?_
  rintro ⟨name, value⟩ kl hkl
  simp only [bind_eq_ok_iff, readLevel_eq_ok_iff, Except.ok.injEq] at hkl
  obtain ⟨-, -, level, hlevel, rfl⟩ := hkl
  exact ⟨rfl, hlevel⟩

/-- The levels of the entries, resolved to rules, decide what the level of each rule is. The
induction leaves the default free, because an entry with a level is the default for those behind it.
-/
theorem levelFrom_levelOf {k : RuleKind} :
    ∀ {entries : List (Doc × Doc)} {levels : List (RuleKind × Level)} {default : Level},
      List.Forall₂ (fun e kl => kl.1.NamedBy e.1 ∧ Level.ofDoc e.2 = .ok kl.2)
        (entries.filter fun e => !isOff e.2) levels →
      LevelFrom entries default k (Selection.levelOf default levels k)
  | [], levels, default, h => by
    obtain rfl := List.forall₂_nil_left_iff.mp h
    exact .inl ⟨nofun, rfl⟩
  | e :: entries, levels, default, h => by
    cases hoff : isOff e.2 with
    | true =>
      rw [List.filter_cons_of_neg (by simp [hoff])] at h
      have hskip : ¬ Overrides k e := fun ho => Bool.noConfusion (hoff.symm.trans ho.2)
      exact .skip hskip (levelFrom_levelOf h)
    | false =>
      rw [List.filter_cons_of_pos (by simp [hoff])] at h
      obtain ⟨⟨k', level⟩, rest, ⟨hname, hlevel⟩, hrest, rfl⟩ := List.forall₂_cons_left_iff.mp h
      rw [Selection.levelOf_cons]
      -- the entry gives this rule its level, or it gives another rule one
      by_cases hk : k = k'
      · rw [if_pos hk]
        exact .override ⟨hk ▸ hname, hoff⟩ hlevel (levelFrom_levelOf hrest)
      · rw [if_neg hk]
        have hskip : ¬ Overrides k e := fun ho => hk (RuleKind.eq_of_namedBy ho.1 hname)
        exact .skip hskip (levelFrom_levelOf hrest)

/-! ### Rules that are built -/

/-- The rules are those that the entries of the file and the items of the variable leave on, each
once and at its level, in the order of their numbers. -/
structure ChosenBy (entries : List (Doc × Doc)) (off : List Doc) (default : Level)
    (rules : List Rule) : Prop where
  built : ∀ k : RuleKind, (∃ r ∈ rules, r.kind = k) ↔
    (¬ ∃ e ∈ entries, k.NamedBy e.1 ∧ isOff e.2 = true) ∧ ¬ ∃ key ∈ off, k.NamedBy key
  once : (rules.map (·.kind)).Nodup
  level : ∀ r ∈ rules, LevelFrom entries default r.kind r.level
  increasing : rules.Pairwise (·.kind.id < ·.kind.id)

/-- **Conflicting settings.** Whatever a settings file and the environment say of rules, and in
whatever spelling: if a run starts with it, then its rules are those that nothing turns off, each at
the last level that it is given. -/
theorem build_of_gather [Yaml.Library] {s : Settings} {keywords : List String}
    {rules : List Rule}
    (hs : gather t env explicit = .ok s) (hrules : s.selection.build keywords = .ok rules) :
    ∃ d, fileDocument t env explicit = .ok d ∧
      ChosenBy (d.get "rules").entries (offVariable env) s.level rules := by
  obtain ⟨file, hfile, hlevels, hdisabled⟩ := gather_spec hs
  obtain ⟨d, hd, hread⟩ := fileSettings_spec hfile
  obtain ⟨levels, disabled, hnamed, hresolved, hkinds, hlevel⟩ := Selection.build_spec hrules
  rw [hlevels] at hnamed
  rw [hdisabled, hread.disabled] at hresolved
  -- what is built is a part of the catalog, and in its order
  have hincreasing : (rules.map (·.kind)).Pairwise (·.id < ·.id) := by
    rw [hkinds]
    exact RuleKind.all_increasing.filter _
  refine ⟨d, hd, fun k => ?_, ?_, fun r hr => ?_, ?_⟩
  · have hbuilt : (∃ r ∈ rules, r.kind = k) ↔ k ∉ disabled := by
      rw [← List.mem_map, hkinds]
      simp [RuleKind.mem_all]
    rw [hbuilt, RuleKind.mem_iff_of_namedBy hresolved, exists_disabled_iff, not_or]
  · exact hincreasing.imp fun hlt heq => (String.ne_of_lt hlt) (congrArg RuleKind.id heq)
  · rw [hlevel r hr]
    refine levelFrom_levelOf ((pairs_comp (readLevels_spec hread.levels) hnamed).imp ?_)
    rintro e kl ⟨given, ⟨hname, hvalue⟩, hkind, hsame⟩
    rw [hsame, ← hname]
    exact ⟨hkind, hvalue⟩
  · simpa only [List.pairwise_map] using hincreasing

/-! ### Settings that contradict themselves -/

/-- A settings file that speaks of two rules twice, by name and by number. -/
def contradicting : FileTree :=
  ⟨[({ names := ["rules.yaml"] }, .file (.text (String.intercalate "\n" [
    "level: information",
    "rules:",
    "  orphaned_table: error",
    "  schematic0016: ' OFF '",
    "  SchemAtic0023: error",
    "  whitespace_name: warning",
    "  redundant_indexes: off"])))]⟩

/-- The variables that name this file and turn two rules off, one of them a second time. -/
def contradictingVariables : Environment :=
  [("SCHEMALINT_CONFIG", "rules.yaml"),
    ("SCHEMALINT_DISABLED_RULES", " schematic0022 ,,Schematic0019")]

/-- The rule that is off in one spelling is off, though it has a level in the other one. Of the rule
with two levels the last one counts. -/
theorem contradicting_chosenBy :
    ∃ s, gather contradicting contradictingVariables {} = .ok s ∧
      ∃ rules, s.selection.build [] = .ok rules ∧
        (∃ d, fileDocument contradicting contradictingVariables {} = .ok d ∧
          ChosenBy (d.get "rules").entries (offVariable contradictingVariables) s.level rules) ∧
        s.level = .information ∧
        rules.map (·.kind) = RuleKind.all.filter
          (· ∉ [.orphanedTable, .redundantIndexes, .uniqueIndexWithNullableColumns]) ∧
        ∀ r ∈ rules, r.level = if r.kind = .whitespaceName then .warning else .information := by
  have hbuilt : ∃ s, gather contradicting contradictingVariables {} = .ok s ∧
      ∃ rules, s.selection.build [] = .ok rules ∧
        s.level = .information ∧
        rules.map (·.kind) = RuleKind.all.filter
          (· ∉ [.orphanedTable, .redundantIndexes, .uniqueIndexWithNullableColumns]) ∧
        ∀ r ∈ rules, r.level = if r.kind = .whitespaceName then .warning else .information := by
    decide +kernel
  obtain ⟨s, hs, rules, hrules, hresult⟩ := hbuilt
  exact ⟨s, hs, rules, hrules, build_of_gather hs hrules, hresult⟩

end SchemaAudit.Settings
