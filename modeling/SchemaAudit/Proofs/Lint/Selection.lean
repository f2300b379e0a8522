import SchemaAudit.Lint.Selection
import SchemaAudit.Proofs.Keyed
import SchemaAudit.Proofs.Results

/-!
# Rules of the catalog and a selection of them

A rule has two kinds of spelling: its name, and its number in any letter case. No text is a spelling
of two rules, so what a selection says of rules is said of them without doubt, however they are
spelled.

- `RuleKind.NamedBy`: a key is a spelling of the rule; `RuleKind.namedBy_of_sameLetter`: its number
  is one in every letter case.
- `RuleKind.resolve_eq_ok_iff`: keys are resolved to the rule that they name, and to no other.
- `Selection.build_spec`: the rules of a selection, their kinds and their levels.
- `Selection.Disables`, `Selection.levelFor`: what a selection says of one rule, and
  `Selection.build_eq`: the rules are built from what it says of each.
-/

namespace SchemaAudit

namespace RuleKind

/-! ### Names and numbers -/

theorem mem_all (k : RuleKind) : k ∈ all := by
  cases k <;> decide

theorem names_nodup : (all.map name).Nodup := by
  decide +kernel

/-- The catalog is in the order of its numbers. -/
theorem all_increasing : all.Pairwise (·.id < ·.id) := by
  have hchain : (all.map id).IsChain (· < ·) := by
    decide +kernel
  exact List.pairwise_map.mp (List.isChain_iff_pairwise.mp hchain)

theorem ids_nodup : (all.map id).Nodup :=
  List.pairwise_map.mpr (all_increasing.imp fun h => (String.ne_of_lt h))

/-- No two rules have the same number. -/
theorem eq_of_id_eq {k l : RuleKind} (h : k.id = l.id) : k = l :=
  eq_of_key_eq ids_nodup (mem_all k) (mem_all l) h

theorem ofName?_eq_some_iff {s : String} {k : RuleKind} : ofName? s = some k ↔ s = k.name :=
  (find?_key_eq_some_iff names_nodup).trans ⟨fun h => h.2.symm, fun h => ⟨mem_all k, h.symm⟩⟩

theorem ofId?_eq_some_iff {s : String} {k : RuleKind} : ofId? s = some k ↔ s = k.id :=
  (find?_key_eq_some_iff ids_nodup).trans ⟨fun h => h.2.symm, fun h => ⟨mem_all k, h.symm⟩⟩

/-- No name is taken for a number: all numbers start with the same letter, and no name does. -/
theorem upper_name_ne_id (k l : RuleKind) : Text.upperString k.name ≠ l.id := by
  have hname : ∀ k ∈ all, (Text.upper k.name.toList).head? ≠ some 'S' := by
    decide +kernel
  have hid : ∀ l ∈ all, l.id.toList.head? = some 'S' := by
    decide +kernel
  intro h
  have hlist : Text.upper k.name.toList = l.id.toList := by
    rw [← h, Text.upperString, String.toList_ofList]
  exact hname k (mem_all k) (hlist ▸ hid l (mem_all l))

/-! ### Keys -/

/-- A key names a rule: by its name, or by its number in any letter case. -/
def NamedBy (k : RuleKind) (key : Doc) : Prop :=
  ∃ s, key = .text s ∧ (s = k.name ∨ Text.upperString s = k.id)

theorem resolve_text_eq_ok_iff {s : String} {k : RuleKind} :
    resolve (.text s) = .ok k ↔
      ofName? s = some k ∨ ofName? s = none ∧ ofId? (Text.upperString s) = some k := by
  rw [resolve]
  cases ofName? s with
  | some l => simp
  | none =>
    cases ofId? (Text.upperString s) with
    | some l => simp
    | none => simp

/-- A key is resolved to the rule that it names. -/
theorem resolve_eq_ok_iff {key : Doc} {k : RuleKind} : resolve key = .ok k ↔ k.NamedBy key := by
  cases key with
  | text s =>
    -- what is a number in capitals is the name of no rule
    have hname (hid : Text.upperString s = k.id) : ofName? s = none := by
      refine Option.eq_none_iff_forall_ne_some.mpr fun l hl => ?_
      rw [ofName?_eq_some_iff.mp hl] at hid
      exact upper_name_ne_id l k hid
    rw [resolve_text_eq_ok_iff, ofName?_eq_some_iff, ofId?_eq_some_iff, and_iff_right_of_imp hname]
    simp [NamedBy]
  | _ => simp [resolve, NamedBy]

/-- A key is a spelling of some rule. -/
def IsSpelling (key : Doc) : Prop :=
  ∃ k : RuleKind, k.NamedBy key

instance (k : RuleKind) (key : Doc) : Decidable (k.NamedBy key) :=
  decidable_of_iff (resolve key = .ok k) resolve_eq_ok_iff

theorem accepted_resolve_iff {key : Doc} : Accepted (resolve key) ↔ IsSpelling key := by
  unfold Accepted IsSpelling
  simp only [resolve_eq_ok_iff]

instance (key : Doc) : Decidable (IsSpelling key) :=
  decidable_of_iff (Accepted (resolve key)) accepted_resolve_iff

/-- A key is a spelling of one rule at most. -/
theorem eq_of_namedBy {k l : RuleKind} {key : Doc} (hk : k.NamedBy key) (hl : l.NamedBy key) :
    k = l :=
  Except.ok.inj ((resolve_eq_ok_iff.mpr hk).symm.trans (resolve_eq_ok_iff.mpr hl))

/-- The rules that some keys name, one by one. -/
theorem mem_iff_of_namedBy {keys : List Doc} {kinds : List RuleKind} {k : RuleKind}
    (h : List.Forall₂ (fun key l => l.NamedBy key) keys kinds) :
    k ∈ kinds ↔ ∃ key ∈ keys, k.NamedBy key := by
  constructor
  · exact exists_partner h.flip k
  · rintro ⟨key, hkey, hk⟩
    obtain ⟨l, hl, hname⟩ := exists_partner h key hkey
    exact eq_of_namedBy hk hname ▸ hl

/-- A character is the other one or the small letter of it. -/
def SameLetter (c d : Char) : Prop :=
  c = d ∨ c = d.toLower

/-- The capital form of a character, and that of its small letter, is the character itself. -/
def isCapital (d : Char) : Bool :=
  Text.upperChar d == [d] && Text.upperChar d.toLower == [d]

theorem upper_eq_of_sameLetter {cs ds : List Char} (h : List.Forall₂ SameLetter cs ds)
    (hds : ds.all isCapital = true) : Text.upper cs = ds := by
  unfold Text.upper
  induction h with
  | nil => rfl
  | @cons c d cs ds hc hcs ih =>
    simp only [List.all_cons, Bool.and_eq_true, isCapital, beq_iff_eq] at hds
    obtain ⟨⟨hcapital, hsmall⟩, hrest⟩ := hds
    rw [List.flatMap_cons, ih hrest]
    rcases hc with rfl | rfl
    · rw [hcapital, List.singleton_append]
    · rw [hsmall, List.singleton_append]

/-- Some letters of a number may be small and others not. -/
theorem namedBy_of_sameLetter {k : RuleKind} {s : String}
    (h : List.Forall₂ SameLetter s.toList k.id.toList) : k.NamedBy (.text s) := by
  have hcapitals : ∀ k ∈ all, k.id.toList.all isCapital = true := by
    decide +kernel
  refine ⟨s, rfl, .inr ?_⟩
  rw [Text.upperString, upper_eq_of_sameLetter h (hcapitals k (mem_all k)), String.ofList_toList]

end RuleKind

/-! ### Rules of a selection -/

theorem makeInspection_kind {kind : RuleKind} {limit keywords : Doc} {i : Inspection}
    (h : makeInspection kind limit keywords = .ok i) : i.kind = kind := by
  have hmap {α : Type} {make : α → Inspection} {x : Except Failure α}
      (hmake : ∀ a, (make a).kind = kind) (hx : x.map make = .ok i) : i.kind = kind := by
    cases x with
    | error f => cases hx
    | ok a => exact Except.ok.inj hx ▸ hmake a
  unfold makeInspection at h
  cases kind with
  | reservedKeywordName => exact hmap (fun _ => rfl) h
  | tooManyColumns => exact hmap (fun _ => rfl) h
  | _ => exact Except.ok.inj h ▸ rfl

namespace Selection

/-- An earlier level counts as a default for what comes behind it. -/
theorem levelOf_cons (default : Level) (l : RuleKind) (level : Level)
    (levels : List (RuleKind × Level)) (k : RuleKind) :
    levelOf default ((l, level) :: levels) k =
      levelOf (if k = l then level else default) levels k := by
  unfold levelOf
  rw [List.reverse_cons, List.lookup_append, List.lookup_cons, List.lookup_nil]
  cases levels.reverse.lookup k with
  | some later => rfl
  | none =>
    by_cases h : k = l
    · simp [h]
    · simp [beq_eq_false_iff_ne.mpr h, h]

theorem resolveLevel_eq_ok_iff {e : Doc × Level} {kl : RuleKind × Level} :
    resolveLevel e = .ok kl ↔ kl.1.NamedBy e.1 ∧ kl.2 = e.2 := by
  unfold resolveLevel
  simp only [bind_eq_ok_iff, RuleKind.resolve_eq_ok_iff, Except.ok.injEq]
  constructor
  · rintro ⟨k, hk, rfl⟩
    exact ⟨hk, rfl⟩
  · rintro ⟨hk, hl⟩
    exact ⟨kl.1, hk, Prod.ext rfl hl.symm⟩

/-- The rules of a selection are those of the catalog but for the disabled ones, in the order of the
catalog and each at its level. -/
theorem build_spec {s : Selection} {keywords : List String} {rules : List Rule}
    (h : s.build keywords = .ok rules) :
    ∃ levels off,
      List.Forall₂ (fun e kl => kl.1.NamedBy e.1 ∧ kl.2 = e.2) s.levels levels ∧
      List.Forall₂ (fun key k => k.NamedBy key) s.disabled off ∧
      rules.map (·.kind) = RuleKind.all.filter (fun k => !off.contains k) ∧
      ∀ r ∈ rules, r.level = levelOf s.defaultLevel levels r.kind := by
  simp only [build, bind_eq_ok_iff, mapM_eq_ok_iff, resolveLevel_eq_ok_iff,
    RuleKind.resolve_eq_ok_iff, Except.ok.injEq] at h
  obtain ⟨levels, hlevels, off, hoff, hrules⟩ := h
  have hmade : List.Forall₂ (fun k r => k = r.kind ∧ r.level = levelOf s.defaultLevel levels k)
      (RuleKind.all.filter fun k => !off.contains k) rules := by
    refine hrules.imp ?_
    rintro k r ⟨i, hi, rfl⟩
    exact ⟨(makeInspection_kind hi).symm, rfl⟩
  refine ⟨levels, off, hlevels, hoff, ?_, fun r hr => ?_⟩
  · have hkinds := List.forall₂_map_right_iff.mpr (hmade.imp fun _ _ hr => hr.1)
    exact (List.forall₂_eq_eq_eq ▸ hkinds).symm
  · obtain ⟨k, -, hk, hlevel⟩ := exists_partner hmade.flip r hr
    exact hk ▸ hlevel

/-! ### What a selection says of a rule -/

/-- The keys by which a selection speaks of rules, in the order in which they are resolved. -/
def keys (s : Selection) : List Doc :=
  s.levels.map (·.1) ++ s.disabled

/-- A selection turns a rule off, in whatever spelling. -/
def Disables (s : Selection) (k : RuleKind) : Prop :=
  ∃ key ∈ s.disabled, k.NamedBy key

instance (s : Selection) (k : RuleKind) : Decidable (s.Disables k) :=
  inferInstanceAs (Decidable (∃ key ∈ s.disabled, k.NamedBy key))

/-- The rules that a selection leaves on, in the order of the catalog. -/
def enabled (s : Selection) : List RuleKind :=
  RuleKind.all.filter fun k => ¬ s.Disables k

/-- The level that a selection gives a rule: the last one given under any of its spellings, or else
the default. -/
def levelFor (s : Selection) (k : RuleKind) : Level :=
  ((s.levels.reverse.find? fun e => k.NamedBy e.1).map (·.2)).getD s.defaultLevel

/-- A rule of a selection. -/
def make (s : Selection) (keywords : List String) (k : RuleKind) : Except Failure Rule := do
  let inspection ← makeInspection k s.columnLimit (.list (keywords.map .text))
  .ok ⟨inspection, s.levelFor k⟩

theorem mapM_resolveLevel (es : List (Doc × Level)) :
    (es.map (·.1)).mapM RuleKind.resolve = (es.mapM resolveLevel).map (List.map (·.1)) := by
  induction es with
  | nil => rfl
  | cons e es ih =>
    rw [List.map_cons, List.mapM_cons, List.mapM_cons, ih, resolveLevel]
    cases RuleKind.resolve e.1 with
    | error f => rfl
    | ok k =>
      cases es.mapM resolveLevel with
      | error f => rfl
      | ok levels => rfl

/-- The resolved levels give each rule the level that the keys give it. -/
theorem levelOf_eq_levelFor {s : Selection} {levels : List (RuleKind × Level)}
    (h : List.Forall₂ (fun e kl => kl.1.NamedBy e.1 ∧ kl.2 = e.2) s.levels levels) (k : RuleKind) :
    levelOf s.defaultLevel levels k = s.levelFor k := by
  have hlookup : levels.reverse.lookup k =
      (s.levels.reverse.find? fun e => k.NamedBy e.1).map (·.2) := by
    have hreversed := List.forall₂_reverse_iff.mpr h
    generalize s.levels.reverse = es, levels.reverse = kls at hreversed ⊢
    induction hreversed with
    | nil => rfl
    | @cons e kl es kls hkl _ ih =>
      obtain ⟨hname, hlevel⟩ := hkl
      rw [List.lookup_cons, List.find?_cons, ih]
      by_cases hk : k.NamedBy e.1
      · rw [RuleKind.eq_of_namedBy hk hname]
        simp [hname, hlevel]
      · have hne : k ≠ kl.1 := fun heq => hk (heq ▸ hname)
        simp [hk, beq_eq_false_iff_ne.mpr hne]
  rw [levelOf, levelFor, hlookup]

/-- Rules are built in two steps: all keys are resolved, and then the rules that are left on are
made. -/
theorem build_eq (s : Selection) (keywords : List String) :
    s.build keywords =
      s.keys.mapM RuleKind.resolve >>= fun _ => s.enabled.mapM (s.make keywords) := by
  rw [build, keys, List.mapM_append, mapM_resolveLevel]
  cases hlevels : s.levels.mapM resolveLevel with
  | error f => rfl
  | ok levels =>
    cases hoff : s.disabled.mapM RuleKind.resolve with
    | error f => rfl
    | ok off =>
      simp only [mapM_eq_ok_iff, resolveLevel_eq_ok_iff] at hlevels
      simp only [mapM_eq_ok_iff, RuleKind.resolve_eq_ok_iff] at hoff
      have henabled : (RuleKind.all.filter fun k => !off.contains k) = s.enabled := by
        refine List.filter_congr fun k _ => ?_
        have hiff : k ∈ off ↔ s.Disables k := RuleKind.mem_iff_of_namedBy hoff
        simp [hiff]
      have hmake : (fun k => do
          let inspection ← makeInspection k s.columnLimit (.list (keywords.map .text))
          .ok ⟨inspection, levelOf s.defaultLevel levels k⟩) = s.make keywords := by
        funext k
        rw [make, levelOf_eq_levelFor hlevels]
      show List.mapM _ _ = List.mapM _ _
      rw [henabled, ← hmake]

theorem make_eq_ok_iff {s : Selection} {keywords : List String} {k : RuleKind} {r : Rule} :
    s.make keywords k = .ok r ↔
      makeInspection k s.columnLimit (.list (keywords.map .text)) = .ok r.inspection ∧
        r.level = s.levelFor k := by
  unfold make
  simp only [bind_eq_ok_iff, Except.ok.injEq]
  constructor
  · rintro ⟨i, hi, rfl⟩
    exact ⟨hi, rfl⟩
  · rintro ⟨hi, hlevel⟩
    exact ⟨r.inspection, hi, hlevel ▸ rfl⟩

/-- What is made of a rule of the catalog is that rule. -/
theorem kind_of_make {s : Selection} {keywords : List String} {k : RuleKind} {r : Rule}
    (h : s.make keywords k = .ok r) : r.kind = k :=
  makeInspection_kind (make_eq_ok_iff.mp h).1

theorem build_eq_ok_iff {s : Selection} {keywords : List String} {rules : List Rule} :
    s.build keywords = .ok rules ↔
      (∀ key ∈ s.keys, RuleKind.IsSpelling key) ∧
        List.Forall₂ (fun k r => s.make keywords k = .ok r) s.enabled rules := by
  have hkeys : Accepted (s.keys.mapM RuleKind.resolve) ↔
      ∀ key ∈ s.keys, RuleKind.IsSpelling key := by
    simp only [accepted_mapM_iff, RuleKind.accepted_resolve_iff]
  have hmade : s.enabled.mapM (s.make keywords) = .ok rules ↔
      List.Forall₂ (fun k r => s.make keywords k = .ok r) s.enabled rules := mapM_eq_ok_iff
  rw [build_eq, bind_eq_ok_iff, exists_and_right, ← Accepted, hkeys, hmade]

/-- The rules that are built are those that are left on. -/
theorem build_kinds {s : Selection} {keywords : List String} {rules : List Rule}
    (h : s.build keywords = .ok rules) : rules.map (·.kind) = s.enabled := by
  obtain ⟨-, hrules⟩ := build_eq_ok_iff.mp h
  have hkinds := List.forall₂_map_right_iff.mpr (hrules.imp fun _ _ hr => (kind_of_make hr).symm)
  exact (List.forall₂_eq_eq_eq ▸ hkinds).symm

theorem enabled_nodup (s : Selection) : s.enabled.Nodup :=
  (List.Nodup.of_map _ RuleKind.ids_nodup).filter _

/-- A rule that is built is left on, and has the level that it is given. -/
theorem rule_of_mem {s : Selection} {keywords : List String} {rules : List Rule}
    (h : s.build keywords = .ok rules) {r : Rule} (hr : r ∈ rules) :
    ¬ s.Disables r.kind ∧ r.level = s.levelFor r.kind := by
  obtain ⟨-, hrules⟩ := build_eq_ok_iff.mp h
  obtain ⟨k, hk, hmade⟩ := exists_partner hrules.flip r hr
  obtain rfl := kind_of_make hmade
  exact ⟨of_decide_eq_true (List.mem_filter.mp hk).2, (make_eq_ok_iff.mp hmade).2⟩

/-- Each rule of the catalog is built at most once. -/
theorem eq_of_kind_eq {s : Selection} {keywords : List String} {rules : List Rule}
    (h : s.build keywords = .ok rules) {r r' : Rule} (hr : r ∈ rules) (hr' : r' ∈ rules)
    (hkind : r.kind = r'.kind) : r = r' :=
  eq_of_key_eq (build_kinds h ▸ s.enabled_nodup) hr hr' hkind

end Selection

end SchemaAudit
