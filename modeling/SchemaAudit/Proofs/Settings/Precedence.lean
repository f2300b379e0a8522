import SchemaAudit.Proofs.Settings.Building

/-!
# Which source of a setting counts

A setting is read from the first of its sources that gives one: what is given explicitly, the
variable of the environment, the field of the settings file. The settings file as a whole is read
before anything else, so a value in it that cannot be read makes a run fail, even if the setting has
a source of higher rank. Everything else that stands in a source behind the first one is never
looked at.

- `Sources`, `Sources.value`: the sources of a setting, and what they say together.
- `Settled`: the settings are what their sources say, each by itself.
- `Explicit.Gives`, `Outranked`: the sources that do not count.
- `FirstOccurrences`: a list without the repetitions of its keys.
- `gather_precedence`: the settings of every run, and what can be changed without changing them.
-/

namespace SchemaAudit.Settings

/-! ### Sources -/

/-- What each source of a setting says of it, where it says anything. -/
structure Sources (α : Type) where
  explicit : Option (Except Failure α)
  environment : Option (Except Failure α)
  file : Option (Except Failure α)
  default : α

/-- The sources in the order of their rank: the first one that says anything counts. -/
def Sources.value {α : Type} (s : Sources α) : Except Failure α :=
  (s.explicit.or (s.environment.or s.file)).getD (.ok s.default)

/-- The sources of a setting that is read in the same way from all of them. -/
def sourcesOf {α : Type} (read : Doc → Except Failure α) (explicit : Doc) (text : Option String)
    (field : Option Doc) (default : α) : Sources α where
  explicit := if explicit = .null then none else some (read explicit)
  environment := text.map fun s => read (.text s)
  file := field.map read
  default

/-- The path of the snapshot. -/
def pathSources (env : Environment) (explicit : Explicit) (d : Doc) : Sources Path where
  explicit := explicit.schemaPath.map .ok
  environment := (env.lookup "SCHEMALINT_SCHEMA_PATH").map fun s => .ok (.ofText s)
  file := (d.get? "schema_path").map readPath
  default := .ofText "schema.yaml"

/-- The level of the rules. -/
def levelSources (env : Environment) (explicit : Explicit) (d : Doc) : Sources Level :=
  sourcesOf (readLevel "level") explicit.level (env.lookup "SCHEMALINT_LEVEL") (d.get? "level")
    .warning

/-- The level that makes a run fail. -/
def failOnSources (env : Environment) (explicit : Explicit) (d : Doc) : Sources Level :=
  sourcesOf (readLevel "fail_on") explicit.failOn (env.lookup "SCHEMALINT_FAIL_ON")
    (d.get? "fail_on") .error

/-- The limit for the number of columns. -/
def limitSources (env : Environment) (explicit : Explicit) (d : Doc) : Sources Int :=
  sourcesOf (readLimit "max_columns") explicit.maxColumns (env.lookup "SCHEMALINT_MAX_COLUMNS")
    (d.get? "max_columns") 100

variable {t : FileTree} {env : Environment} {explicit : Explicit}

/-- What is read of a field is what the file says of a setting. -/
theorem readField_eq {α : Type} {d : Doc} {name : String} {read : Doc → Except Failure α}
    {value : Option α} (h : readField d name read = .ok value) :
    (d.get? name).map read = value.map .ok := by
  unfold readField at h
  split at h
  · next v hv =>
    cases hread : read v with
    | error f =>
      rw [hread] at h
      cases h
    | ok a =>
      rw [hread] at h
      obtain rfl := Except.ok.inj h
      rw [hv, Option.map_some, hread, Option.map_some]
  · next hnone =>
    obtain rfl := Except.ok.inj h
    rw [hnone]
    rfl

/-- A setting is read from the first of its sources. -/
theorem resolve_eq_value {α : Type} {read : Doc → Except Failure α} {given : Doc}
    {text : Option String} {d : Doc} {name : String} {value : Option α} {default : α}
    (h : readField d name read = .ok value) :
    resolve read given text (value.getD default) =
      (sourcesOf read given text (d.get? name) default).value := by
  unfold resolve Sources.value sourcesOf
  dsimp only
  rw [readField_eq h]
  split
  · cases text with
    | none => cases value <;> rfl
    | some s => rfl
  · rfl

theorem resolvePath_eq_value {d : Doc} {file : FileSettings}
    (h : readField d "schema_path" readPath = .ok file.schemaPath) :
    .ok (resolvePath env explicit file) = (pathSources env explicit d).value := by
  unfold resolvePath Sources.value pathSources
  dsimp only
  rw [readField_eq h]
  split
  · next p _ hp => rw [hp]; rfl
  · next s hp hs => rw [hp, hs]; rfl
  · next hp hs =>
    rw [hp, hs]
    cases file.schemaPath <;> rfl

/-! ### Rules that are off -/

/-- The keys of a list, each where it comes first: none of them is the same as one before it, and
at each place of the list the keys up to there are among them, or the same as one of them. -/
structure FirstOccurrences (keys kept : List Doc) : Prop where
  sublist : kept.Sublist keys
  distinct : kept.Pairwise fun k l => Doc.sameKey l k = false
  first : ∀ before, before <+: keys → ∃ front, front <+: kept ∧ front ⊆ before ∧
    ∀ k ∈ before, ∃ l ∈ front, l = k ∨ Doc.sameKey k l = true

theorem distinctKeys_prefix (before : List Doc) (after : List Doc) :
    distinctKeys before <+: distinctKeys (before ++ after) := by
  induction after using List.reverseRecOn with
  | nil => simp
  | append_singleton after key ih =>
    rw [← List.append_assoc, distinctKeys_concat]
    split
    · exact ih
    · exact ih.trans (List.prefix_append _ _)

theorem firstOccurrences_distinctKeys (keys : List Doc) :
    FirstOccurrences keys (distinctKeys keys) where
  sublist := by
    induction keys using List.reverseRecOn with
    | nil => exact List.Sublist.slnil
    | append_singleton keys key ih =>
      rw [distinctKeys_concat]
      split
      · exact ih.trans (List.sublist_append_left _ _)
      · exact ih.append (List.Sublist.refl _)
  distinct := by
    induction keys using List.reverseRecOn with
    | nil => exact .nil
    | append_singleton keys key ih =>
      rw [distinctKeys_concat]
      split
      · exact ih
      · next hnew =>
        rw [List.any_eq_true] at hnew
        refine List.pairwise_append.mpr ⟨ih, List.pairwise_singleton _ _, fun k hk l hl => ?_⟩
        obtain rfl := List.mem_singleton.mp hl
        exact Bool.eq_false_iff.mpr fun hsame => hnew ⟨k, hk, hsame⟩
  first := by
    rintro before ⟨after, rfl⟩
    exact ⟨distinctKeys before, distinctKeys_prefix before after,
      fun _ => mem_of_mem_distinctKeys, fun _ => exists_mem_distinctKeys⟩

/-! ### Settings of a run -/

/-- Each setting is what its sources say. The limit is positive, and the rules that are off are
those of the file and then those of the variable, each where it comes first. -/
structure Settled (env : Environment) (explicit : Explicit) (d : Doc) (s : Settings) : Prop where
  schemaPath : (pathSources env explicit d).value = .ok s.schemaPath
  level : (levelSources env explicit d).value = .ok s.level
  failOn : (failOnSources env explicit d).value = .ok s.failOn
  maxColumns : (limitSources env explicit d).value = .ok s.maxColumns
  positive : 0 < s.maxColumns
  disabled : FirstOccurrences (offNames (d.get "rules").entries ++ offVariable env) s.disabled

theorem settled_of_gather [Yaml.Library] {s : Settings} (h : gather t env explicit = .ok s) :
    ∃ d, fileDocument t env explicit = .ok d ∧ Settled env explicit d s := by
  have hpositive := limit_pos_of_gather h
  simp only [gather, bind_eq_ok_iff, Except.ok.injEq] at h
  obtain ⟨file, hfile, level, hlevel, failOn, hfailOn, limit, hlimit, rfl⟩ := h
  obtain ⟨d, hd, hread⟩ := fileSettings_spec hfile
  refine ⟨d, hd, ?_⟩
  exact {
    schemaPath := (resolvePath_eq_value hread.schemaPath).symm
    level := (resolve_eq_value hread.level).symm.trans hlevel
    failOn := (resolve_eq_value hread.failOn).symm.trans hfailOn
    maxColumns := (resolve_eq_value hread.maxColumns).symm.trans hlimit
    positive := hpositive
    disabled := hread.disabled ▸ firstOccurrences_distinctKeys _ }

/-! ### Sources that do not count -/

/-- The settings that have several sources. -/
inductive Setting where
  | schemaPath
  | level
  | failOn
  | maxColumns
  deriving DecidableEq, Repr

/-- The variable of the environment that speaks of a setting. -/
def Setting.key : Setting → String
  | schemaPath => "SCHEMALINT_SCHEMA_PATH"
  | level => "SCHEMALINT_LEVEL"
  | failOn => "SCHEMALINT_FAIL_ON"
  | maxColumns => "SCHEMALINT_MAX_COLUMNS"

/-- The field of the settings file that speaks of a setting. -/
def Setting.field : Setting → String
  | schemaPath => "schema_path"
  | level => "level"
  | failOn => "fail_on"
  | maxColumns => "max_columns"

/-- A setting is given explicitly. -/
def Explicit.Gives (e : Explicit) : Setting → Prop
  | .schemaPath => e.schemaPath ≠ none
  | .level => e.level ≠ .null
  | .failOn => e.failOn ≠ .null
  | .maxColumns => e.maxColumns ≠ .null

/-- The variables are the same, but for those of settings that are given explicitly. -/
def SameVariables (explicit : Explicit) (env env' : Environment) : Prop :=
  ∀ key, env'.lookup key = env.lookup key ∨ ∃ x : Setting, key = x.key ∧ explicit.Gives x

/-- The fields are the same, but for those of settings that are given explicitly or by a variable.
-/
def SameFields (explicit : Explicit) (env : Environment) (d d' : Doc) : Prop :=
  ∀ name, d'.get? name = d.get? name ∨
    ∃ x : Setting, name = x.field ∧ (explicit.Gives x ∨ env.lookup x.key ≠ none)

theorem Setting.key_injective {x y : Setting} (h : x.key = y.key) : x = y := by
  revert h
  cases x <;> cases y <;> decide

theorem Setting.field_injective {x y : Setting} (h : x.field = y.field) : x = y := by
  revert h
  cases x <;> cases y <;> decide

section Changes

variable {t' : FileTree} {env' : Environment} {d d' : Doc} {file file' : FileSettings}

theorem SameVariables.refl (explicit : Explicit) (env : Environment) :
    SameVariables explicit env env :=
  fun _ => .inl rfl

theorem SameFields.refl (explicit : Explicit) (env : Environment) (d : Doc) :
    SameFields explicit env d d :=
  fun _ => .inl rfl

/-- A variable that counts is the same. -/
theorem SameVariables.lookup_eq (h : SameVariables explicit env env') {x : Setting}
    (hx : ¬ explicit.Gives x) : env'.lookup x.key = env.lookup x.key := by
  rcases h x.key with heq | ⟨y, hkey, hy⟩
  · exact heq
  · exact absurd (Setting.key_injective hkey ▸ hy) hx

/-- A variable that speaks of no single setting is the same. -/
theorem SameVariables.lookup_eq_of_ne (h : SameVariables explicit env env') {key : String}
    (hne : ∀ x : Setting, key ≠ x.key) : env'.lookup key = env.lookup key :=
  (h key).resolve_right fun ⟨x, hkey, _⟩ => hne x hkey

/-- A field that counts is the same. -/
theorem SameFields.get?_eq (h : SameFields explicit env d d') {x : Setting}
    (hx : ¬ explicit.Gives x) (hvariable : env.lookup x.key = none) :
    d'.get? x.field = d.get? x.field := by
  rcases h x.field with heq | ⟨y, hfield, hy⟩
  · exact heq
  · obtain rfl := Setting.field_injective hfield
    exact absurd hvariable (hy.resolve_left hx)

theorem readField_congr {α : Type} {name : String} {read : Doc → Except Failure α}
    {value value' : Option α} (hd : readField d name read = .ok value)
    (hd' : readField d' name read = .ok value') (hget : d'.get? name = d.get? name) :
    value' = value := by
  have hsame : readField d' name read = readField d name read := by
    rw [readField, readField, hget]
  exact Except.ok.inj (hd'.symm.trans (hsame.trans hd))

/-- Only the first source of a setting is looked at. -/
theorem resolve_congr {α : Type} {read : Doc → Except Failure α} {given : Doc} {x : Setting}
    {value value' : Option α} (hgives : explicit.Gives x ↔ given ≠ .null)
    (hvariables : SameVariables explicit env env') (hfields : SameFields explicit env d d')
    (hd : readField d x.field read = .ok value) (hd' : readField d' x.field read = .ok value')
    (default : α) :
    resolve read given (env'.lookup x.key) (value'.getD default) =
      resolve read given (env.lookup x.key) (value.getD default) := by
  unfold resolve
  split
  · next hnull =>
    have hx : ¬ explicit.Gives x := fun h => hgives.mp h hnull
    rw [hvariables.lookup_eq hx]
    cases hvariable : env.lookup x.key with
    | some s => rfl
    | none => rw [readField_congr hd hd' (hfields.get?_eq hx hvariable)]
  · rfl

theorem resolvePath_congr (hvariables : SameVariables explicit env env')
    (hfields : SameFields explicit env d d')
    (hd : readField d "schema_path" readPath = .ok file.schemaPath)
    (hd' : readField d' "schema_path" readPath = .ok file'.schemaPath) :
    resolvePath env' explicit file' = resolvePath env explicit file := by
  unfold resolvePath
  cases hgiven : explicit.schemaPath with
  | some p => rfl
  | none =>
    have hx : ¬ explicit.Gives .schemaPath := fun h => h hgiven
    have htext : env'.lookup "SCHEMALINT_SCHEMA_PATH" = env.lookup "SCHEMALINT_SCHEMA_PATH" :=
      hvariables.lookup_eq hx
    rw [htext]
    cases hvariable : env.lookup "SCHEMALINT_SCHEMA_PATH" with
    | some s => rfl
    | none => rw [readField_congr hd hd' (hfields.get?_eq hx hvariable)]

/-- Two runs whose sources differ only behind the first ones have the same settings, or fail in the
same way. -/
theorem gather_congr [Yaml.Library] (hfile : fileSettings t env explicit = .ok file)
    (hfile' : fileSettings t' env' explicit = .ok file') (hread : DocumentRead d file)
    (hread' : DocumentRead d' file') (hvariables : SameVariables explicit env env')
    (hfields : SameFields explicit env d d') :
    gather t' env' explicit = gather t env explicit := by
  have hrules : d'.get? "rules" = d.get? "rules" := by
    refine (hfields "rules").resolve_right ?_
    rintro ⟨x, hx, -⟩
    cases x <;> exact absurd hx (by decide)
  have hlevels : file'.levels = file.levels := by
    have hsame := hread'.levels
    rw [Doc.get, hrules] at hsame
    exact Except.ok.inj (hsame.symm.trans hread.levels)
  have hdisabled : file'.disabled = file.disabled := by
    rw [hread'.disabled, hread.disabled, Doc.get, hrules, Doc.get]
  have hoff : offVariable env' = offVariable env := by
    rw [offVariable, offVariable, hvariables.lookup_eq_of_ne fun x => by cases x <;> decide]
  have hlevel := resolve_congr (x := .level) Iff.rfl hvariables hfields hread.level hread'.level
    ({} : Settings).level
  have hfailOn := resolve_congr (x := .failOn) Iff.rfl hvariables hfields hread.failOn
    hread'.failOn ({} : Settings).failOn
  have hlimit := resolve_congr (x := .maxColumns) Iff.rfl hvariables hfields hread.maxColumns
    hread'.maxColumns ({} : Settings).maxColumns
  unfold gather
  rw [bind_eq_of_ok hfile, bind_eq_of_ok hfile']
  dsimp only [Setting.key] at hlevel hfailOn hlimit ⊢
  rw [hlevel, hfailOn, hlimit, hlevels, hdisabled, hoff,
    resolvePath_congr hvariables hfields hread.schemaPath hread'.schemaPath]

/-- Variables of settings that are given explicitly are not looked at. -/
theorem gather_of_sameVariables [Yaml.Library] (h : SameVariables explicit env env') :
    gather t env' explicit = gather t env explicit := by
  have hconfig : env'.lookup "SCHEMALINT_CONFIG" = env.lookup "SCHEMALINT_CONFIG" :=
    h.lookup_eq_of_ne fun x => by cases x <;> decide
  have hsame : fileSettings t env' explicit = fileSettings t env explicit := by
    rw [fileSettings, configFile?, hconfig]
    rfl
  cases hfile : fileSettings t env explicit with
  | error f =>
    rw [hfile] at hsame
    rw [gather, gather, bind_eq_of_error hfile, bind_eq_of_error hsame]
  | ok file =>
    obtain ⟨d, -, hread⟩ := fileSettings_spec hfile
    exact gather_congr hfile (hsame.trans hfile) hread hread h (.refl explicit env d)

/-- Fields of settings that have a source of higher rank are not looked at, but for whether they can
be read. -/
theorem gather_of_sameFields [Yaml.Library] (hd : fileDocument t env explicit = .ok d)
    (hd' : fileDocument t' env explicit = .ok d') (hfile : fileSettings t env explicit = .ok file)
    (hfile' : fileSettings t' env explicit = .ok file') (h : SameFields explicit env d d') :
    gather t' env explicit = gather t env explicit := by
  obtain ⟨e, he, hread⟩ := fileSettings_spec hfile
  obtain ⟨e', he', hread'⟩ := fileSettings_spec hfile'
  obtain rfl : d = e := Except.ok.inj (hd.symm.trans he)
  obtain rfl : d' = e' := Except.ok.inj (hd'.symm.trans he')
  exact gather_congr hfile hfile' hread hread' (.refl explicit env) h

end Changes

/-- What the settings of a run depend on. -/
structure Precedence [Yaml.Library] (t : FileTree) (env : Environment) (explicit : Explicit) :
    Prop where
  /-- A run that starts has the settings that their sources say. -/
  settled : ∀ s, gather t env explicit = .ok s →
    ∃ d, fileDocument t env explicit = .ok d ∧ Settled env explicit d s
  /-- With other variables for settings that are given explicitly, nothing changes. -/
  environment : ∀ env', SameVariables explicit env env' →
    gather t env' explicit = gather t env explicit
  /-- With other fields for settings that are given explicitly or by a variable, nothing changes, as
  long as the files can be read. -/
  file : ∀ t' d d', fileDocument t env explicit = .ok d → fileDocument t' env explicit = .ok d' →
    Accepted (fileSettings t env explicit) → Accepted (fileSettings t' env explicit) →
      SameFields explicit env d d' → gather t' env explicit = gather t env explicit
  /-- With a file that cannot be read, no run starts. -/
  refused : ∀ f, fileSettings t env explicit = .error f → gather t env explicit = .error f

/-- **Precedence.** Each setting of a run is what the first of its own sources says, and what stands
in a source of lower rank changes neither the settings nor whether there are any. -/
theorem gather_precedence [Yaml.Library] (t : FileTree) (env : Environment)
    (explicit : Explicit) : Precedence t env explicit where
  settled _ h := settled_of_gather h
  environment _ h := gather_of_sameVariables h
  file := by
    rintro t' d d' hd hd' ⟨file, hfile⟩ ⟨file', hfile'⟩ h
    exact gather_of_sameFields hd hd' hfile hfile' h
  refused _ h := bind_eq_of_error h

/-! ### Settings from all sources -/

/-- A settings file that speaks of all settings, with the given limit. -/
def fullFile (limit : Doc) : FileTree :=
  ⟨[({ names := ["rules.yaml"] }, .file (.document (.map [
    (.text "max_columns", limit),
    (.text "schema_path", .text "snapshots/"),
    (.text "level", .text "error"),
    (.text "fail_on", .int 2),
    (.text "rules", .map [(.text "orphaned_table", .bool false),
      (.text "whitespace_name", .text "Off")])])))]⟩

/-- The variables that name this file. They give a limit and the given text for the level. -/
def fullVariables (level : String) : Environment :=
  [("SCHEMALINT_LEVEL", level), ("SCHEMALINT_CONFIG", "rules.yaml"),
    ("SCHEMALINT_MAX_COLUMNS", " 1_2 "),
    ("SCHEMALINT_DISABLED_RULES", "redundant_indexes, , orphaned_table ,")]

/-- A level that is given explicitly. -/
def explicitLevel : Explicit where
  level := .text "info"

/-- What these sources say together, whatever the limit in the file and the level of the variable.
-/
def fullSettings : Settings where
  schemaPath := .ofText "snapshots"
  level := .information
  failOn := .warning
  maxColumns := 12
  disabled := [.text "orphaned_table", .text "whitespace_name", .text "redundant_indexes"]

/-- The level of the variable is none, and the limit of the file is another one: neither counts. -/
theorem fullSettings_precedence :
    gather (fullFile (.int 7)) (fullVariables "error") explicitLevel = .ok fullSettings ∧
      (∃ d, fileDocument (fullFile (.int 7)) (fullVariables "error") explicitLevel = .ok d ∧
        Settled (fullVariables "error") explicitLevel d fullSettings) ∧
      gather (fullFile (.int 7)) (fullVariables "loud") explicitLevel = .ok fullSettings ∧
      gather (fullFile (.text "99")) (fullVariables "error") explicitLevel = .ok fullSettings := by
  have hgather : gather (fullFile (.int 7)) (fullVariables "error") explicitLevel =
      .ok fullSettings := by
    decide +kernel
  have hprecedence := gather_precedence (fullFile (.int 7)) (fullVariables "error") explicitLevel
  refine ⟨hgather, hprecedence.settled _ hgather, ?_, ?_⟩
  · rw [← hgather]
    refine hprecedence.environment _ fun key => ?_
    by_cases hkey : key = "SCHEMALINT_LEVEL"
    · exact .inr ⟨.level, hkey, (nofun : Doc.text "info" ≠ .null)⟩
    · have hbeq : (key == "SCHEMALINT_LEVEL") = false := beq_eq_false_iff_ne.mpr hkey
      exact .inl (by simp only [fullVariables, List.lookup_cons, hbeq])
  · rw [← hgather]
    refine hprecedence.file _ _ _ rfl rfl (by decide +kernel) (by decide +kernel) fun name => ?_
    by_cases hname : name = "max_columns"
    · exact .inr ⟨.maxColumns, hname, .inr (by decide)⟩
    · refine .inl ?_
      simp [Doc.get?, Doc.fieldOf?, Ne.symm hname]

end SchemaAudit.Settings
