import SchemaAudit.Proofs.Lint.Cursor
import SchemaAudit.Proofs.Results

/-!
# Names that messages show

Keys, indexes, checks and triggers have the names that the snapshot gives them, whatever values
these are, and an integer with too many digits has no text. Six inspections show such names in what
they say of a table. Which names these are depends on what they find, and neither on levels nor on
other rules.

- `Inspection.shownNames`: the names that an inspection shows in what it says of a table.
- `Inspection.all_isWritable_ofTable`: its texts can be written if and only if these names can.
- `reportCollection_eq`, `report_eq`: a run of rules fails if one of them shows a name that cannot
  be written, and otherwise gives all messages.
-/

namespace SchemaAudit

namespace Lint

/-- The names of the disabled parts of a table. -/
def disabledNames (t : Table) : List Doc :=
  let keys := t.primaryKey.toList ++ t.uniqueKeys ++ t.parentKeys.map (·.childKey)
  (keys.filter (!·.enabled.isPresent)).map (·.name) ++
    (t.indexes.filter (!·.enabled.isPresent)).map (·.name) ++
    (t.checks.filter (!·.enabled.isPresent)).map (·.name) ++
    (t.triggers.filter (!·.enabled.isPresent)).map (·.name)

/-- The names of those foreign keys of a table that satisfy `p`. -/
def foreignKeyNames (p : Relationship → Bool) (t : Table) : List Doc :=
  (t.parentKeys.filter p).map (·.childKey.name)

end Lint

/-- The names that an inspection shows in what it says of a table. -/
def Inspection.shownNames (i : Inspection) (t : Table) : List Doc :=
  match i with
  | disabledObjects => Lint.disabledNames t
  | foreignKeyColumnTypeMismatch => Lint.foreignKeyNames (!·.mismatches.isEmpty) t
  | foreignKeyIndex => Lint.foreignKeyNames (Lint.lacksIndex t) t
  | foreignKeyIsPrimaryKey => Lint.foreignKeyNames Lint.referencesItself t
  | redundantIndexes => (Lint.redundantPairs t).flatMap fun p => [p.1.name, p.2.name]
  | uniqueIndexWithNullableColumns =>
    (t.indexes.filter fun x => (Lint.nullableUniqueIndex t x).isSome).map (·.name)
  | _ => []

/-- Whether a rule shows a name that cannot be written in what it says of a table. -/
def Rule.showsUnwritableIn (r : Rule) (t : Table) : Bool :=
  (r.inspection.shownNames t).any (!·.isWritable)

/-- Whether one of the rules shows a name that cannot be written in what it says of the tables. -/
def showsUnwritable (rules : List Rule) (ts : List Table) : Bool :=
  rules.any fun r => ts.any r.showsUnwritableIn

section

variable {rules : List Rule} {ts : List Table}

/-- No rule shows a name that cannot be written if all names that the rules show can. -/
theorem showsUnwritable_eq_false_iff :
    showsUnwritable rules ts = false ↔
      ∀ r ∈ rules, ∀ t ∈ ts, ∀ n ∈ r.inspection.shownNames t, n.isWritable = true := by
  simp only [showsUnwritable, Rule.showsUnwritableIn, List.any_eq_false, Bool.not_eq_true,
    Bool.not_eq_false']

/-- One name that cannot be written is enough. -/
theorem showsUnwritable_of_mem {r : Rule} (hr : r ∈ rules) {t : Table} (ht : t ∈ ts) {n : Doc}
    (hn : n ∈ r.inspection.shownNames t) (h : n.isWritable = false) :
    showsUnwritable rules ts = true := by
  refine Bool.of_not_eq_false fun hnone => ?_
  rw [showsUnwritable_eq_false_iff.mp hnone r hr t ht n hn] at h
  cases h

end

/-! ### Descriptions -/

/-- A value that says nothing can be written. -/
theorem Doc.isWritable_of_not_isPresent {d : Doc} (h : d.isPresent = false) :
    d.isWritable = true := by
  cases d with
  | int n =>
    obtain rfl : n = 0 := by simpa [isPresent] using h
    rfl
  | list ds =>
    obtain rfl : ds = [] := by simpa [isPresent] using h
    rfl
  | map es =>
    obtain rfl : es = [] := by simpa [isPresent] using h
    rfl
  | _ => rfl

@[simp] theorem isWritable_describeNamed (kind : String) (name : Doc) (columns : String) :
    (describeNamed kind name columns).isWritable = name.isWritable := by
  unfold describeNamed
  split
  · simp
  · next h =>
    rw [Doc.isWritable_of_not_isPresent (Bool.eq_false_iff.mpr h)]
    rfl

@[simp] theorem Key.isWritable_wording (k : Key) (kind : String) :
    (k.wording kind).isWritable = k.name.isWritable :=
  isWritable_describeNamed ..

@[simp] theorem Index.isWritable_wording (i : Index) : i.wording.isWritable = i.name.isWritable :=
  isWritable_describeNamed ..

/-! ### What is said of a table -/

namespace Lint

variable {α : Type} {name : α → Doc}

/-- Of the parts that are not enabled, each shows its name. -/
theorem all_isWritable_disabled {enabled : α → Bool} {say : α → List Wording}
    (hsay : ∀ a, (say a).all Wording.isWritable = (name a).isWritable) (as : List α) :
    (as.flatMap fun a => if enabled a then [] else say a).all Wording.isWritable =
      ((as.filter fun a => !enabled a).map name).all Doc.isWritable := by
  induction as with
  | nil => rfl
  | cons a as ih =>
    rw [List.flatMap_cons, List.all_append, ih, List.filter_cons]
    cases enabled a with
    | true => rfl
    | false => exact congrArg (· && _) (hsay a)

/-- Of the parts of which something is said, each shows its name. -/
theorem all_isWritable_filterMap {say : α → Option Wording}
    (hsay : ∀ a w, say a = some w → w.isWritable = (name a).isWritable) (as : List α) :
    (as.filterMap say).all Wording.isWritable =
      ((as.filter fun a => (say a).isSome).map name).all Doc.isWritable := by
  induction as with
  | nil => rfl
  | cons a as ih =>
    rw [List.filterMap_cons, List.filter_cons]
    cases hw : say a with
    | none => exact ih
    | some w =>
      show (w.isWritable && _) = ((name a).isWritable && _)
      rw [hsay a w hw, ih]

theorem all_isWritable_disabledObjects (t : Table) :
    (disabledObjects t).all Wording.isWritable = (disabledNames t).all Doc.isWritable := by
  have hparts : (disabledObjects t).all Wording.isWritable =
      (disabledParts t).all Wording.isWritable := by
    simp [disabledObjects, List.all_map, Function.comp_def]
  have hkeys (kind : String) (ks : List Key) :
      (ks.flatMap fun k => if k.enabled.isPresent then [] else [k.wording kind]).all
          Wording.isWritable =
        ((ks.filter (!·.enabled.isPresent)).map (·.name)).all Doc.isWritable :=
    all_isWritable_disabled (fun k => by simp) ks
  have hforeign := hkeys "foreign key" (t.parentKeys.map (·.childKey))
  rw [List.flatMap_map] at hforeign
  have hindexes :
      (t.indexes.flatMap fun i => if i.enabled.isPresent then [] else [i.wording]).all
          Wording.isWritable =
        ((t.indexes.filter (!·.enabled.isPresent)).map (·.name)).all Doc.isWritable :=
    all_isWritable_disabled (fun i => by simp) t.indexes
  have hchecks :
      (t.checks.flatMap fun c =>
        if c.enabled.isPresent then []
        else if c.name.isPresent then ["check constraint '" ++ Wording.value c.name ++ "'"]
        else ["check constraint"]).all Wording.isWritable =
        ((t.checks.filter (!·.enabled.isPresent)).map (·.name)).all Doc.isWritable := by
    refine all_isWritable_disabled (fun c => ?_) t.checks
    split
    · simp
    · next h =>
      rw [Doc.isWritable_of_not_isPresent (Bool.eq_false_iff.mpr h)]
      rfl
  have htriggers :
      (t.triggers.flatMap fun g =>
        if g.enabled.isPresent then [] else ["trigger '" ++ Wording.value g.name ++ "'"]).all
          Wording.isWritable =
        ((t.triggers.filter (!·.enabled.isPresent)).map (·.name)).all Doc.isWritable :=
    all_isWritable_disabled (fun g => by simp) t.triggers
  rw [hparts, disabledParts, disabledNames]
  dsimp only
  simp only [List.all_append, List.filter_append, List.map_append, hkeys, hforeign, hindexes,
    hchecks, htriggers]

/-- What is said of some foreign keys shows the name of each. -/
theorem all_isWritable_foreignKeys {p : Relationship → Bool} {say : Relationship → Wording}
    (hsay : ∀ r, (say r).isWritable = r.childKey.name.isWritable) (t : Table) :
    ((t.parentKeys.filter p).map say).all Wording.isWritable =
      (foreignKeyNames p t).all Doc.isWritable := by
  rw [foreignKeyNames, List.all_map, List.all_map]
  exact congrArg (List.all _) (funext hsay)

theorem all_isWritable_typeMismatches (t : Table) :
    (typeMismatches t).all Wording.isWritable =
      (foreignKeyNames (!·.mismatches.isEmpty) t).all Doc.isWritable := by
  have hsome : ∀ r, (typeMismatch t r).isSome = !r.mismatches.isEmpty := by
    intro r
    unfold typeMismatch
    cases r.mismatches with
    | nil => rfl
    | cons p ps => rfl
  have hsay : ∀ r w, typeMismatch t r = some w → w.isWritable = r.childKey.name.isWritable := by
    intro r w h
    unfold typeMismatch at h
    split at h
    · cases h
    · obtain rfl := Option.some.inj h
      simp
  rw [typeMismatches, all_isWritable_filterMap hsay, foreignKeyNames]
  simp only [hsome]

theorem all_isWritable_redundantIndexes (t : Table) :
    (redundantIndexes t).all Wording.isWritable =
      ((redundantPairs t).flatMap fun p => [p.1.name, p.2.name]).all Doc.isWritable := by
  rw [redundantIndexes, List.all_map, List.all_flatMap]
  refine congrArg (List.all _) (funext fun p => ?_)
  simp

theorem all_isWritable_nullableUniqueIndexes (t : Table) :
    (nullableUniqueIndexes t).all Wording.isWritable =
      ((t.indexes.filter fun x => (nullableUniqueIndex t x).isSome).map (·.name)).all
        Doc.isWritable := by
  refine all_isWritable_filterMap (fun i w h => ?_) t.indexes
  unfold nullableUniqueIndex at h
  split at h
  · obtain rfl := Option.some.inj h
    simp
  · cases h

end Lint

namespace Inspection

theorem all_isWritable_plain (texts : List String) :
    (plain texts).all Wording.isWritable = true := by
  rw [plain, List.all_map]
  exact List.all_eq_true.mpr fun _ _ => rfl

/-- What an inspection says of a table can be written if the names that it shows can. -/
theorem all_isWritable_ofTable (i : Inspection) (t : Table) :
    (i.ofTable t).all Wording.isWritable = (i.shownNames t).all Doc.isWritable := by
  cases i with
  | disabledObjects => exact Lint.all_isWritable_disabledObjects t
  | foreignKeyColumnTypeMismatch => exact Lint.all_isWritable_typeMismatches t
  | foreignKeyIndex => exact Lint.all_isWritable_foreignKeys (fun r => by simp) t
  | foreignKeyIsPrimaryKey => exact Lint.all_isWritable_foreignKeys (fun r => by simp) t
  | redundantIndexes => exact Lint.all_isWritable_redundantIndexes t
  | uniqueIndexWithNullableColumns => exact Lint.all_isWritable_nullableUniqueIndexes t
  | foreignKeyMissing => rfl
  | foreignKeyRelationshipCycle => rfl
  | _ => exact all_isWritable_plain _

/-- What is said of several objects can be written if this holds of each. -/
theorem all_isWritable_each {α : Type} (as : List α) (name : α → Identifier)
    (say : α → List Wording) :
    (as.flatMap fun a => (say a).map fun text => ((name a, text) : Finding)).all
        (·.2.isWritable) =
      as.all fun a => (say a).all Wording.isWritable := by
  rw [List.all_flatMap]
  exact congrArg (List.all _) (funext fun a => List.all_map)

theorem all_isWritable_each_plain {α : Type} {as : List α} {name : α → Identifier}
    {say : α → List Wording} (hsay : ∀ a, ∃ texts, say a = plain texts) :
    (as.flatMap fun a => (say a).map fun text => ((name a, text) : Finding)).all
        (·.2.isWritable) = true := by
  rw [all_isWritable_each]
  refine List.all_eq_true.mpr fun a _ => ?_
  obtain ⟨texts, htexts⟩ := hsay a
  rw [htexts, all_isWritable_plain]

/-- What an inspection finds in tables can be written if the names that it shows can. -/
theorem all_isWritable_findings (i : Inspection) (ts : List Table) :
    (i.findings (.tables ts)).all (·.2.isWritable) =
      ts.all fun t => (i.shownNames t).all Doc.isWritable := by
  -- the two inspections that look at all tables show no names of parts
  have hnone : (ts.all fun _ => ([] : List Doc).all Doc.isWritable) = true :=
    List.all_eq_true.mpr fun _ _ => rfl
  by_cases hmissing : i = .foreignKeyMissing
  · subst hmissing
    exact (all_isWritable_each_plain fun t => ⟨_, rfl⟩).trans hnone.symm
  by_cases hcycle : i = .foreignKeyRelationshipCycle
  · subst hcycle
    refine Eq.trans ?_ hnone.symm
    refine List.all_eq_true.mpr fun f hf => ?_
    obtain ⟨c, -, rfl⟩ := List.mem_map.mp hf
    rfl
  rw [findings_tables hmissing hcycle, all_isWritable_each]
  exact congrArg (List.all _) (funext i.all_isWritable_ofTable)

/-- What an inspection of names says shows no names of parts. -/
theorem ofName_eq_plain (i : Inspection) (k : ObjectKind) (name : Identifier) :
    ∃ texts, i.ofName k name = plain texts := by
  unfold ofName
  split
  · exact ⟨_, rfl⟩
  · exact ⟨[], rfl⟩

theorem ofView_eq_plain (i : Inspection) (v : View) : ∃ texts, i.ofView v = plain texts := by
  unfold ofView
  split
  · exact ⟨_, rfl⟩
  · exact ⟨[], rfl⟩

/-- What an inspection finds in objects of other kinds can be written. -/
theorem all_isWritable_findings_of_ne {i : Inspection} {c : Collection} (h : c.kind ≠ .table) :
    (i.findings c).all (·.2.isWritable) = true := by
  rw [findings_of_ne h]
  cases c with
  | tables ts => exact absurd rfl h
  | views vs => exact all_isWritable_each_plain i.ofView_eq_plain
  | sequences ss => exact all_isWritable_each_plain fun s => i.ofName_eq_plain .sequence s.name
  | synonyms ss => exact all_isWritable_each_plain fun s => i.ofName_eq_plain .synonym s.name
  | routines rs => exact all_isWritable_each_plain fun r => i.ofName_eq_plain .routine r.name

end Inspection

/-! ### Runs -/

theorem Rule.tell_eq (r : Rule) (f : Finding) :
    r.tell f = if f.2.isWritable then .ok (r.message f) else .error .unwritable := by
  rw [tell, Wording.write_eq]
  split
  · rfl
  · rfl

namespace Rule

/-- Whether all that a rule finds in a collection can be written. -/
def canTell (r : Rule) (c : Collection) : Bool :=
  (r.inspection.findings c).all (·.2.isWritable)

theorem report_eq (r : Rule) (c : Collection) :
    r.report c = if r.canTell c then .ok (r.messages c) else .error .unwritable :=
  mapM_eq_ite r.tell_eq _

theorem canTell_tables (r : Rule) (ts : List Table) :
    r.canTell (.tables ts) = !ts.any r.showsUnwritableIn := by
  rw [canTell, Inspection.all_isWritable_findings, List.not_any_eq_all_not]
  refine congrArg (List.all ts) (funext fun t => ?_)
  rw [showsUnwritableIn, List.not_any_eq_all_not]
  simp only [Bool.not_not]

theorem canTell_of_ne (r : Rule) {c : Collection} (h : c.kind ≠ .table) : r.canTell c = true :=
  Inspection.all_isWritable_findings_of_ne h

end Rule

/-- A run over the objects of a collection fails at what one of the rules cannot tell. -/
theorem reportCollection_eq (rules : List Rule) (c : Collection) :
    reportCollection rules c =
      if rules.all (·.canTell c) then .ok (lintCollection rules c) else .error .unwritable := by
  have hall : (rules.filter (·.inspection.supports c.kind)).all (·.canTell c) =
      rules.all (·.canTell c) := by
    rw [List.all_filter]
    refine congrArg (List.all rules) (funext fun r => ?_)
    cases hsupports : r.inspection.supports c.kind with
    | true => rfl
    | false =>
      rw [Rule.canTell, Inspection.findings_of_unsupported hsupports]
      rfl
  rw [reportCollection, mapM_eq_ite fun r : Rule => r.report_eq c, hall]
  split
  · rw [lintCollection, List.flatMap_def]
    rfl
  · rfl

theorem all_canTell_tables (rules : List Rule) (ts : List Table) :
    rules.all (·.canTell (.tables ts)) = !showsUnwritable rules ts := by
  simp only [Rule.canTell_tables]
  rw [← List.not_any_eq_all_not]
  rfl

/-- **Runs over tables.** A run fails if a rule shows a name that cannot be written, and otherwise
it gives the messages of all rules. -/
theorem reportCollection_tables (rules : List Rule) (ts : List Table) :
    reportCollection rules (.tables ts) =
      if showsUnwritable rules ts then .error .unwritable
      else .ok (lintCollection rules (.tables ts)) := by
  rw [reportCollection_eq, all_canTell_tables]
  cases showsUnwritable rules ts with
  | true => rfl
  | false => rfl

section

variable {rules : List Rule} {ts : List Table}

theorem reportCollection_eq_ok_iff {ms : List Message} :
    reportCollection rules (.tables ts) = .ok ms ↔
      showsUnwritable rules ts = false ∧ ms = lintCollection rules (.tables ts) := by
  rw [reportCollection_tables]
  exact ite_eq_ok_iff

theorem reportCollection_eq_error_iff :
    reportCollection rules (.tables ts) = .error .unwritable ↔ showsUnwritable rules ts = true := by
  rw [reportCollection_tables]
  exact ite_eq_error_iff

/-- Which names are shown depends on inspections only, and not on levels. -/
theorem showsUnwritable_of_inspections {rules' : List Rule}
    (h : ∀ r' ∈ rules', ∃ r ∈ rules, r'.inspection = r.inspection)
    (hshows : showsUnwritable rules ts = false) : showsUnwritable rules' ts = false := by
  refine showsUnwritable_eq_false_iff.mpr fun r' hr' t ht n hn => ?_
  obtain ⟨r, hr, hinspection⟩ := h r' hr'
  exact showsUnwritable_eq_false_iff.mp hshows r hr t ht n (hinspection ▸ hn)

/-- The names of one table more are shown besides. -/
theorem showsUnwritable_concat (t : Table) :
    showsUnwritable rules (ts ++ [t]) =
      (showsUnwritable rules ts || rules.any (·.showsUnwritableIn t)) := by
  unfold showsUnwritable
  induction rules with
  | nil => rfl
  | cons r rules ih =>
    rw [List.any_cons, List.any_cons, List.any_cons, ih, List.any_append, List.any_cons,
      List.any_nil, Bool.or_false]
    ac_rfl

end

/-- **Runs over a database.** Tables alone have parts whose names can be shown. -/
theorem report_eq (rules : List Rule) (d : Database) :
    report rules d =
      if showsUnwritable rules d.tables then .error .unwritable else .ok (lint rules d) := by
  have hothers (c : Collection) (hc : c.kind ≠ .table) : rules.all (·.canTell c) = true :=
    List.all_eq_true.mpr fun r _ => r.canTell_of_ne hc
  have hall : (d.collections.all fun c => rules.all (·.canTell c)) =
      !showsUnwritable rules d.tables := by
    rw [← all_canTell_tables, Database.collections, ObjectKind.all]
    simp only [List.map_cons, List.map_nil, List.all_cons, List.all_nil, Database.collection]
    rw [hothers (.views d.views) nofun, hothers (.sequences d.sequences) nofun,
      hothers (.synonyms d.synonyms) nofun, hothers (.routines d.routines) nofun]
    simp only [Bool.and_true]
  rw [report, mapM_eq_ite (reportCollection_eq rules), hall, lint, List.flatMap_def]
  cases showsUnwritable rules d.tables with
  | true => rfl
  | false => rfl

theorem report_eq_ok_iff {rules : List Rule} {d : Database} {ms : List Message} :
    report rules d = .ok ms ↔ showsUnwritable rules d.tables = false ∧ ms = lint rules d := by
  rw [report_eq]
  exact ite_eq_ok_iff

theorem report_eq_error_iff {rules : List Rule} {d : Database} :
    report rules d = .error .unwritable ↔ showsUnwritable rules d.tables = true := by
  rw [report_eq]
  exact ite_eq_error_iff

end SchemaAudit
