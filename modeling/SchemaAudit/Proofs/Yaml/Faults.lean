import Mathlib.Data.List.TakeWhile
import SchemaAudit.Yaml.Node

/-!
# Scalars that denote nothing

A YAML text that follows the grammar may still have no value: one of its plain scalars is written
like a number or a time, but there is no such number or time.

- `plainValue_of_timestamp`: what is written like a time is written like nothing else, so it has the
  value of the time, or none if there is no such time.
- `Node.plainScalars`: the plain scalars in a tree.
- `Node.exists_scalar_of_mem_levels`, `Node.mem_levels_of_mem_plainScalars`: the faults of a tree
  are those of the plain scalars in it, and those of keys with parts.
- `read_eq_impossible_iff`, `read_eq_impossible_of_timestamp`: when a text is refused for a value
  that does not exist.
-/

namespace SchemaAudit.Yaml

/-! ### Texts that start like a time -/

/-- A decimal digit. -/
def IsDigit (c : Char) : Prop :=
  (Text.asciiDigit? c).isSome = true

instance : DecidablePred IsDigit :=
  fun c => inferInstanceAs (Decidable ((Text.asciiDigit? c).isSome = true))

/-- A character that is no digit differs from every digit. -/
theorem IsDigit.ne {c d : Char} (hc : IsDigit c) (hd : ¬ IsDigit d) : c ≠ d :=
  fun h => hd (h ▸ hc)

theorem takeDigits_spec {least most : ℕ} {cs rest : List Char} {n : ℕ}
    (h : takeDigits least most cs = some (n, rest)) :
    ∃ ds, cs = ds ++ rest ∧ least ≤ ds.length ∧ ∀ c ∈ ds, IsDigit c := by
  unfold takeDigits at h
  dsimp only at h
  split at h
  · next hleast =>
    obtain ⟨-, rfl⟩ := Prod.mk.inj (Option.some.inj h)
    refine ⟨_, ?_, hleast, fun c hc => ?_⟩
    · exact (List.prefix_iff_eq_append.mp
        ((List.takeWhile_prefix _).trans (List.take_prefix most cs))).symm
    · have hdigit := List.mem_takeWhile_imp hc
      exact hdigit
  · cases h

theorem takeChar_eq_some_iff {c : Char} {cs rest : List Char} :
    takeChar c cs = some rest ↔ cs = c :: rest := by
  cases cs with
  | nil => exact ⟨nofun, nofun⟩
  | cons d cs =>
    rw [takeChar, List.cons.injEq]
    split
    · next h => exact ⟨fun heq => ⟨h, Option.some.inj heq⟩, fun heq => congrArg some heq.2⟩
    · next h => exact ⟨nofun, fun heq => absurd heq.1 h⟩

/-- A text that starts like a date: with the digits of a year and a hyphen. -/
def StartsWithYear (cs : List Char) : Prop :=
  ∃ ds rest, cs = ds ++ '-' :: rest ∧ ds ≠ [] ∧ ∀ c ∈ ds, IsDigit c

theorem startsWithYear_of_timestamp {cs : List Char} {r : Except Fault Doc}
    (h : timestamp? cs = some r) : StartsWithYear cs := by
  unfold timestamp? at h
  obtain ⟨⟨year, behind⟩, hyear, h⟩ := Option.bind_eq_some_iff.mp h
  obtain ⟨rest, hrest, -⟩ := Option.bind_eq_some_iff.mp h
  obtain ⟨ds, rfl, hlength, hds⟩ := takeDigits_spec hyear
  obtain rfl := takeChar_eq_some_iff.mp hrest
  refine ⟨ds, rest, rfl, ?_, hds⟩
  rintro rfl
  cases hlength

variable {cs : List Char}

theorem StartsWithYear.head (h : StartsWithYear cs) : ∃ c ds, cs = c :: ds ∧ IsDigit c := by
  obtain ⟨ds, rest, rfl, hne, hds⟩ := h
  obtain ⟨c, ds, rfl⟩ := List.exists_cons_of_ne_nil hne
  exact ⟨c, _, rfl, hds c List.mem_cons_self⟩

theorem StartsWithYear.mem (h : StartsWithYear cs) : '-' ∈ cs := by
  obtain ⟨ds, rest, rfl, -, -⟩ := h
  exact List.mem_append_right ds List.mem_cons_self

/-- The year and the hyphen stand before the first separator of another kind. -/
theorem StartsWithYear.takeWhile {p : Char → Bool} (h : StartsWithYear cs)
    (hdigit : ∀ c, IsDigit c → p c = true) (hhyphen : p '-' = true) :
    StartsWithYear (cs.takeWhile p) := by
  obtain ⟨ds, rest, rfl, hne, hds⟩ := h
  refine ⟨ds, rest.takeWhile p, ?_, hne, hds⟩
  rw [List.takeWhile_append_of_pos fun c hc => hdigit c (hds c hc),
    List.takeWhile_cons_of_pos hhyphen]

/-- The first piece of a text is what stands before the first separator. -/
theorem splitWhere_eq (p : Char → Bool) :
    ∀ cs : List Char, ∃ pieces, Text.splitWhere p cs = cs.takeWhile (!p ·) :: pieces
  | [] => ⟨[], rfl⟩
  | c :: cs => by
    obtain ⟨pieces, hpieces⟩ := splitWhere_eq p cs
    rw [Text.splitWhere, hpieces]
    by_cases hc : p c = true
    · rw [if_pos hc, List.takeWhile_cons_of_neg (by rw [hc]; decide)]
      exact ⟨_, rfl⟩
    · rw [if_neg hc, List.takeWhile_cons_of_pos (by rw [Bool.eq_false_iff.mpr hc]; rfl)]
      exact ⟨pieces, rfl⟩

/-! ### Times are no numbers -/

/-- A hyphen is in no number behind its sign. -/
theorem isNumeral_of_mem {base : ℕ} (h : '-' ∈ cs) : isNumeral base cs = false := by
  have hall : (cs.all fun c => c = '_' || (Text.hexDigit? c).any (· < base)) = false := by
    rw [List.all_eq_false]
    exact ⟨'-', h, nofun⟩
  rw [isNumeral, hall, Bool.and_false]

theorem StartsWithYear.startsWithDigit (h : StartsWithYear cs) : startsWithDigit cs = false := by
  rw [Yaml.startsWithDigit, isNumeral_of_mem h.mem, Bool.and_false]

theorem StartsWithYear.startsWithPositive (h : StartsWithYear cs) :
    startsWithPositive cs = false := by
  rw [Yaml.startsWithPositive, h.startsWithDigit, Bool.false_and]

/-- The first place of a number to the base sixty would hold the year and the hyphen. -/
theorem StartsWithYear.firstPlace (h : StartsWithYear cs) :
    ∃ first places, Text.splitWhere (· == ':') cs = first :: places ∧ StartsWithYear first := by
  obtain ⟨places, hplaces⟩ := splitWhere_eq (· == ':') cs
  refine ⟨_, places, hplaces, h.takeWhile (fun c hc => ?_) rfl⟩
  have hcolon : c ≠ ':' := hc.ne (by decide)
  rw [beq_eq_false_iff_ne.mpr hcolon]
  rfl

theorem StartsWithYear.takeSign (h : StartsWithYear cs) : Number.takeSign cs = (false, cs) := by
  obtain ⟨c, ds, rfl, hc⟩ := h.head
  have hminus : c ≠ '-' := hc.ne (by decide)
  have hplus : c ≠ '+' := hc.ne (by decide)
  unfold Number.takeSign
  split
  · next heq => exact absurd (List.cons.inj heq).1 hminus
  · next heq => exact absurd (List.cons.inj heq).1 hplus
  · rfl

theorem StartsWithYear.unsigned? (h : StartsWithYear cs) : unsigned? cs = none := by
  have hmem := h.mem
  obtain ⟨first, places, hplaces, hfirst⟩ := h.firstPlace
  -- behind each of the prefixes of a base the hyphen would be a digit
  have hnumeral : ∀ {base : ℕ} {ds : List Char} {r : Except Fault Int}, '-' ∈ ds →
      (if isNumeral base ds = true then some r else none) = none := by
    intro base ds r hds
    rw [isNumeral_of_mem hds]
    rfl
  unfold Yaml.unsigned?
  split
  · exact absurd hmem (by decide)
  · exact hnumeral (by simpa using hmem)
  · exact hnumeral (by simpa using hmem)
  · exact hnumeral (by simpa using hmem)
  · rw [h.startsWithPositive, hplaces]
    dsimp only
    rw [hfirst.startsWithPositive]
    rfl

theorem StartsWithYear.integer? (h : StartsWithYear cs) : integer? cs = none := by
  rw [Yaml.integer?, h.takeSign]
  dsimp only
  rw [h.unsigned?]
  rfl

theorem StartsWithYear.unsignedFloat? (h : StartsWithYear cs) (hasSign : Bool) :
    unsignedFloat? hasSign cs = none := by
  have hwhole : StartsWithYear (cs.takeWhile (· ≠ '.')) := by
    refine h.takeWhile (fun c hc => ?_) rfl
    have hpoint : c ≠ '.' := hc.ne (by decide)
    exact decide_eq_true hpoint
  obtain ⟨first, places, hplaces, hfirst⟩ := hwhole.firstPlace
  unfold Yaml.unsignedFloat?
  dsimp only
  split
  · rfl
  · rw [if_neg, hwhole.startsWithDigit, hplaces]
    · dsimp only
      rw [hfirst.startsWithDigit]
      rfl
    · obtain ⟨c, ds, heq, -⟩ := hwhole.head
      rw [heq]
      exact Bool.false_ne_true

/-- No word with a meaning of its own starts with a digit. -/
theorem StartsWithYear.notWord (h : StartsWithYear cs) {words : List String}
    (hwords : ∀ w ∈ words, w.toList.head?.any (fun c => decide (IsDigit c)) = false) :
    String.ofList cs ∉ words := by
  intro hmem
  obtain ⟨c, ds, rfl, hc⟩ := h.head
  have hword := hwords _ hmem
  rw [String.toList_ofList, List.head?_cons, Option.any_some, decide_eq_false_iff_not] at hword
  exact hword hc

theorem StartsWithYear.float? (h : StartsWithYear cs) : float? cs = none := by
  rw [Yaml.float?, h.takeSign]
  dsimp only
  rw [if_neg, if_neg, h.unsignedFloat?]
  · rfl
  · rw [List.contains_iff_mem]
    exact h.notWord (by decide)
  · rw [List.contains_iff_mem]
    exact h.notWord (by decide)

/-- **Times are written like nothing else.** A scalar that is written like a time has the value of
this time, and none if no calendar or clock shows it. -/
theorem plainValue_of_timestamp {r : Except Fault Doc} (h : timestamp? cs = some r) :
    plainValue cs = r := by
  have hyear := startsWithYear_of_timestamp h
  have hbool : boolWords.lookup (String.ofList cs) = none := by
    rw [List.lookup_eq_none_iff]
    intro p hp
    have hword : String.ofList cs ∉ boolWords.map (·.1) := hyear.notWord (by decide)
    exact bne_iff_ne.mpr fun heq => hword (heq ▸ List.mem_map_of_mem hp)
  unfold plainValue
  dsimp only
  rw [if_neg, if_neg, hbool, hyear.integer?, hyear.float?, h]
  · rfl
  · rw [List.contains_iff_mem]
    exact hyear.notWord (by decide)
  · rw [List.contains_iff_mem]
    exact hyear.notWord (by decide)

/-! ### Which scalars denote nothing -/

theorem sumPlaces_eq_error {f : Fault} :
    ∀ {xs : List Binary64} {weight : ℕ} {sum : Binary64},
      sumPlaces weight sum xs = .error f → f = .tooLarge
  | [], _, _, h => by cases h
  | x :: xs, weight, sum, h => by
    rw [sumPlaces] at h
    split at h
    · exact (Except.error.inj h).symm
    · exact sumPlaces_eq_error h

theorem unsignedFloat?_eq_error {hasSign : Bool} {f : Fault}
    (h : unsignedFloat? hasSign cs = some (.error f)) : f = .tooLarge := by
  have hpointed : ∀ {e : Option ℤ} {x : ℤ → Binary64},
      e.map (fun n => (Except.ok (x n) : Except Fault Binary64)) ≠ some (.error f) := by
    intro e x
    cases e <;> exact nofun
  unfold unsignedFloat? at h
  dsimp only at h
  split at h
  · cases h
  · split at h
    · split at h
      · exact absurd h hpointed
      · cases h
    · split at h
      · exact absurd h hpointed
      · split at h
        · split at h
          · exact sumPlaces_eq_error (Option.some.inj h)
          · cases h
        · cases h

/-- A floating-point number can be too large, but is never one that does not exist. -/
theorem float?_eq_error {f : Fault} (h : float? cs = some (.error f)) : f = .tooLarge := by
  unfold float? at h
  dsimp only at h
  split at h
  · cases h
  · split at h
    · cases h
    · obtain ⟨r, hr, hmap⟩ := Option.map_eq_some_iff.mp h
      cases r with
      | ok x => cases hmap
      | error g =>
        obtain rfl := Except.error.inj hmap
        exact unsignedFloat?_eq_error hr

/-- A scalar is written like an integer or a time, but no integer or time is written so. -/
def DenotesNothing (cs : List Char) : Prop :=
  integer? cs = some (.error .impossible) ∨ timestamp? cs = some (.error .impossible)

theorem denotesNothing_of_plainValue (h : plainValue cs = .error .impossible) :
    DenotesNothing cs := by
  unfold plainValue at h
  dsimp only at h
  split at h
  · cases h
  · split at h
    · cases h
    · split at h
      · cases h
      · cases hinteger : integer? cs with
        | some r =>
          rw [hinteger] at h
          exact .inl (hinteger.trans (congrArg some h))
        | none =>
          rw [hinteger] at h
          cases hfloat : float? cs with
          | some r =>
            rw [hfloat] at h
            cases float?_eq_error (hfloat.trans (congrArg some h))
          | none =>
            rw [hfloat] at h
            cases htime : timestamp? cs with
            | some r =>
              rw [htime] at h
              exact .inr (htime.trans (congrArg some h))
            | none =>
              rw [htime] at h
              cases h

/-! ### Faults of trees -/

namespace Node

/-- The text of a scalar, if it is written plainly. -/
def plainText : Node → List (List Char)
  | .scalar true cs => [cs]
  | _ => []

mutual

/-- The plain scalars that stand in a tree, as values or as keys. -/
def plainScalars : Node → List (List Char)
  | .scalar isPlain cs => plainText (.scalar isPlain cs)
  | .list ns => itemScalars ns
  | .map es => entryScalars es

/-- The plain scalars in several trees. -/
def itemScalars : List Node → List (List Char)
  | [] => []
  | n :: ns => plainScalars n ++ itemScalars ns

/-- The plain scalars among the keys of a mapping and in its values. -/
def entryScalars : List (Node × Node) → List (List Char)
  | [] => []
  | (k, v) :: es => plainText k ++ (plainScalars v ++ entryScalars es)

end

theorem mem_plainText_iff {isPlain : Bool} {text : List Char} :
    cs ∈ plainText (.scalar isPlain text) ↔ isPlain = true ∧ cs = text := by
  cases isPlain with
  | true => simp [plainText]
  | false => simp [plainText]

theorem mem_flatten_mergeLevels_iff {f : Fault} :
    ∀ {as bs : List (List Fault)},
      f ∈ (mergeLevels as bs).flatten ↔ f ∈ as.flatten ∨ f ∈ bs.flatten
  | [], bs => by rw [mergeLevels]; simp
  | a :: as, [] => by rw [mergeLevels] <;> simp
  | a :: as, b :: bs => by
    rw [mergeLevels, List.flatten_cons, List.flatten_cons, List.flatten_cons, List.mem_append,
      List.mem_append, List.mem_append, List.mem_append, mem_flatten_mergeLevels_iff]
    exact or_or_or_comm

theorem mem_faultOf_iff {f : Fault} {r : Except Fault Doc} : f ∈ faultOf r ↔ r = .error f := by
  cases r with
  | ok d => exact ⟨fun h => absurd h List.not_mem_nil, nofun⟩
  | error g =>
    rw [faultOf, List.mem_singleton]
    exact ⟨fun h => h ▸ rfl, fun h => (Except.error.inj h).symm⟩

/-- The fault of a scalar is the fault of its plain value. -/
theorem scalarValue_eq_error_iff {isPlain : Bool} {f : Fault} :
    scalarValue isPlain cs = .error f ↔ isPlain = true ∧ plainValue cs = .error f := by
  cases isPlain with
  | true => exact ⟨fun h => ⟨rfl, h⟩, And.right⟩
  | false => exact ⟨nofun, fun h => absurd h.1 Bool.false_ne_true⟩

theorem plainValue_of_scalarKey {isPlain : Bool} {f : Fault}
    (h : scalarKey isPlain cs = .error f) : isPlain = true ∧ plainValue cs = .error f := by
  unfold scalarKey at h
  split at h
  · cases h
  · exact scalarValue_eq_error_iff.mp h

mutual

/-- A fault of a tree is a key with parts, or the fault of a plain scalar in the tree. -/
theorem exists_scalar_of_mem_levels {f : Fault} : (n : Node) → f ∈ n.levels.flatten →
    f = .malformed ∨ ∃ cs ∈ n.plainScalars, plainValue cs = .error f
  | .scalar isPlain cs, h => by
    rw [levels, List.flatten_singleton, mem_faultOf_iff, scalarValue_eq_error_iff] at h
    exact .inr ⟨cs, mem_plainText_iff.mpr ⟨h.1, rfl⟩, h.2⟩
  | .list ns, h => by
    rw [levels, List.flatten_cons, List.nil_append] at h
    exact exists_scalar_of_mem_itemLevels ns h
  | .map es, h => by
    rw [levels, List.flatten_cons, List.nil_append] at h
    exact exists_scalar_of_mem_entryLevels es h

theorem exists_scalar_of_mem_itemLevels {f : Fault} : (ns : List Node) →
    f ∈ (itemLevels ns).flatten →
      f = .malformed ∨ ∃ cs ∈ itemScalars ns, plainValue cs = .error f
  | [], h => absurd h List.not_mem_nil
  | n :: ns, h => by
    rw [itemLevels, mem_flatten_mergeLevels_iff] at h
    rw [itemScalars]
    rcases h with h | h
    · refine (exists_scalar_of_mem_levels n h).imp_right ?_
      exact fun ⟨cs, hcs, hvalue⟩ => ⟨cs, List.mem_append_left _ hcs, hvalue⟩
    · refine (exists_scalar_of_mem_itemLevels ns h).imp_right ?_
      exact fun ⟨cs, hcs, hvalue⟩ => ⟨cs, List.mem_append_right _ hcs, hvalue⟩

theorem exists_scalar_of_mem_entryLevels {f : Fault} : (es : List (Node × Node)) →
    f ∈ (entryLevels es).flatten →
      f = .malformed ∨ ∃ cs ∈ entryScalars es, plainValue cs = .error f
  | [], h => absurd h List.not_mem_nil
  | (k, v) :: es, h => by
    rw [entryLevels, mem_flatten_mergeLevels_iff, mem_flatten_mergeLevels_iff,
      List.flatten_singleton] at h
    rw [entryScalars]
    rcases h with h | h | h
    · cases k with
      | scalar isPlain cs =>
        rw [keyFaults, mem_faultOf_iff] at h
        obtain ⟨hplain, hvalue⟩ := plainValue_of_scalarKey h
        exact .inr ⟨cs, List.mem_append_left _ (mem_plainText_iff.mpr ⟨hplain, rfl⟩), hvalue⟩
      | _ => exact .inl (List.mem_singleton.mp h)
    · refine (exists_scalar_of_mem_levels v h).imp_right ?_
      exact fun ⟨cs, hcs, hvalue⟩ =>
        ⟨cs, List.mem_append_right _ (List.mem_append_left _ hcs), hvalue⟩
    · refine (exists_scalar_of_mem_entryLevels es h).imp_right ?_
      exact fun ⟨cs, hcs, hvalue⟩ =>
        ⟨cs, List.mem_append_right _ (List.mem_append_right _ hcs), hvalue⟩

end

/-- The equals sign, which is a key all the same, is none of the scalars that denote nothing. -/
theorem scalarKey_of_plainValue (hvalue : plainValue cs = .error .impossible) :
    scalarKey true cs = .error .impossible := by
  have hkey : cs ≠ ['='] := by
    rintro rfl
    revert hvalue
    decide
  rw [scalarKey, if_neg hkey]
  exact hvalue

mutual

/-- A plain scalar that denotes nothing is a fault of every tree in which it stands. -/
theorem mem_levels_of_mem_plainScalars (hvalue : plainValue cs = .error .impossible) :
    (n : Node) → cs ∈ n.plainScalars → .impossible ∈ n.levels.flatten
  | .scalar isPlain text, h => by
    obtain ⟨rfl, rfl⟩ := mem_plainText_iff.mp h
    rw [levels, List.flatten_singleton, mem_faultOf_iff]
    exact hvalue
  | .list ns, h => by
    rw [levels, List.flatten_cons, List.nil_append]
    exact mem_itemLevels_of_mem_itemScalars hvalue ns h
  | .map es, h => by
    rw [levels, List.flatten_cons, List.nil_append]
    exact mem_entryLevels_of_mem_entryScalars hvalue es h

theorem mem_itemLevels_of_mem_itemScalars (hvalue : plainValue cs = .error .impossible) :
    (ns : List Node) → cs ∈ itemScalars ns → .impossible ∈ (itemLevels ns).flatten
  | [], h => absurd h List.not_mem_nil
  | n :: ns, h => by
    rw [itemLevels, mem_flatten_mergeLevels_iff]
    rcases List.mem_append.mp h with h | h
    · exact .inl (mem_levels_of_mem_plainScalars hvalue n h)
    · exact .inr (mem_itemLevels_of_mem_itemScalars hvalue ns h)

theorem mem_entryLevels_of_mem_entryScalars (hvalue : plainValue cs = .error .impossible) :
    (es : List (Node × Node)) → cs ∈ entryScalars es → .impossible ∈ (entryLevels es).flatten
  | [], h => absurd h List.not_mem_nil
  | (k, v) :: es, h => by
    rw [entryLevels, mem_flatten_mergeLevels_iff, mem_flatten_mergeLevels_iff,
      List.flatten_singleton]
    rcases List.mem_append.mp h with h | h
    · cases k with
      | scalar isPlain text =>
        obtain ⟨rfl, rfl⟩ := mem_plainText_iff.mp h
        exact .inl (mem_faultOf_iff.mpr (scalarKey_of_plainValue hvalue))
      | _ => exact absurd h List.not_mem_nil
    · rcases List.mem_append.mp h with h | h
      · exact .inr (.inl (mem_levels_of_mem_plainScalars hvalue v h))
      · exact .inr (.inr (mem_entryLevels_of_mem_entryScalars hvalue es h))

end

end Node

/-! ### Texts without a value -/

theorem read_of_fault {text : String} {n : Node} {f : Fault} (htree : tree text = .ok n)
    (hfault : n.firstFault? = some f) : read text = .error f := by
  simp only [read, htree, Bind.bind, Except.bind, hfault]

theorem read_of_no_fault {text : String} {n : Node} (htree : tree text = .ok n)
    (hfault : n.firstFault? = none) : read text = .ok n.toDoc := by
  simp only [read, htree, Bind.bind, Except.bind, hfault]

/-- A text is refused for a value that does not exist where its tree cannot be read for one, or
where the first fault of its tree is a plain scalar that denotes nothing. -/
theorem read_eq_impossible_iff {text : String} :
    read text = .error .impossible ↔
      tree text = .error .impossible ∨
        ∃ n, tree text = .ok n ∧ n.firstFault? = some .impossible ∧
          ∃ cs ∈ n.plainScalars, DenotesNothing cs := by
  constructor
  · intro h
    cases htree : tree text with
    | error f =>
      rw [read, htree] at h
      exact .inl (congrArg _ (Except.error.inj h))
    | ok n =>
      cases hfault : n.firstFault? with
      | none =>
        rw [read_of_no_fault htree hfault] at h
        cases h
      | some f =>
        rw [read_of_fault htree hfault] at h
        obtain rfl := Except.error.inj h
        have hmem : Fault.impossible ∈ n.levels.flatten := List.mem_of_head? hfault
        rcases n.exists_scalar_of_mem_levels hmem with hne | ⟨cs, hcs, hvalue⟩
        · cases hne
        · exact .inr ⟨n, rfl, hfault, cs, hcs, denotesNothing_of_plainValue hvalue⟩
  · rintro (htree | ⟨n, htree, hfault, -⟩)
    · rw [read, htree]
      rfl
    · exact read_of_fault htree hfault

/-- **No text with an impossible time has a value.** Where a time that does not exist stands in a
text, and nothing else is wrong with it, the text is refused for a value that does not exist. -/
theorem read_eq_impossible_of_timestamp {text : String} {n : Node} {cs : List Char}
    (htree : tree text = .ok n) (hcs : cs ∈ n.plainScalars)
    (htime : timestamp? cs = some (.error .impossible))
    (honly : ∀ f ∈ n.levels.flatten, f = .impossible) : read text = .error .impossible := by
  have hmem := n.mem_levels_of_mem_plainScalars (plainValue_of_timestamp htime) hcs
  cases hfault : n.firstFault? with
  | none =>
    rw [Node.firstFault?, List.head?_eq_none_iff] at hfault
    rw [hfault] at hmem
    exact absurd hmem List.not_mem_nil
  | some f => exact honly f (List.mem_of_head? hfault) ▸ read_of_fault htree hfault

end SchemaAudit.Yaml
