import SchemaAudit.Lint.Check.Columns
import SchemaAudit.Proofs.Text.Folding

/-!
# Default values that are null

A default value is null if the four letters stand in it, in any number of parentheses, with blanks
anywhere but between the letters. The test peels a text from the outside: as long as it starts with
an opening and ends with a closing parenthesis, these two go, and then the outer blanks of the rest.
The two need not belong together, as in `(a) (b)`, but what is left of such a text is not null.

- `NullText`: the grammar of these texts.
- `PeelsTo`: a text, and what is left of it when nothing can be peeled off any more. Each text has
  exactly one such rest, since what is peeled off makes it shorter.
- `isNullDefault_language`: the test ends on every text, and accepts exactly the grammar.
-/

namespace SchemaAudit.Lint

open Text

/-- The word null in small letters. -/
def nullWord : List Char :=
  ['n', 'u', 'l', 'l']

/-- The texts of null: the word in any letter case between blanks, or such a text in parentheses
between blanks. -/
inductive NullText : List Char → Prop where
  | word {before cs after : List Char} (hbefore : ∀ c ∈ before, isBlank c = true)
    (hword : Spelled cs nullWord) (hafter : ∀ c ∈ after, isBlank c = true) :
    NullText (before ++ cs ++ after)
  | wrapped {before cs after : List Char} (hbefore : ∀ c ∈ before, isBlank c = true)
    (hinner : NullText cs) (hafter : ∀ c ∈ after, isBlank c = true) :
    NullText (before ++ '(' :: (cs ++ [')']) ++ after)

/-- Parentheses are taken from the ends of a text, and then blanks, until there are no parentheses
at both of its ends. -/
inductive PeelsTo : List Char → List Char → Prop where
  | stop {cs : List Char} (h : ∀ inner, cs ≠ '(' :: (inner ++ [')'])) : PeelsTo cs cs
  | turn {inner core : List Char} (h : PeelsTo (strip inner) core) :
    PeelsTo ('(' :: (inner ++ [')'])) core

/-! ### Peeling -/

theorem unwrap?_wrapped (inner : List Char) :
    unwrap? ('(' :: (inner ++ [')'])) = some (strip inner) := by
  simp [unwrap?]

/-- Nothing else is taken away than a parenthesis at each end and the blanks behind them. -/
theorem exists_of_unwrap? {cs inner : List Char} (h : unwrap? cs = some inner) :
    ∃ between, cs = '(' :: (between ++ [')']) ∧ inner = strip between := by
  unfold unwrap? at h
  split at h
  · next rest =>
    split at h
    · next hlast =>
      obtain ⟨between, rfl⟩ := List.getLast?_eq_some_iff.mp hlast
      rw [List.dropLast_concat] at h
      exact ⟨between, rfl, (Option.some.inj h).symm⟩
    · cases h
  · cases h

theorem unwrap?_eq_none_iff {cs : List Char} :
    unwrap? cs = none ↔ ∀ inner, cs ≠ '(' :: (inner ++ [')']) := by
  constructor
  · rintro h inner rfl
    rw [unwrap?_wrapped] at h
    cases h
  · intro h
    cases hunwrap : unwrap? cs with
    | none => rfl
    | some inner =>
      obtain ⟨between, hcs, -⟩ := exists_of_unwrap? hunwrap
      exact absurd hcs (h between)

/-- The limit on the turns is never reached, since each turn takes two characters. -/
theorem peelsTo_unwrapAll {limit : Nat} {cs : List Char} (h : cs.length ≤ limit) :
    PeelsTo cs (unwrapAll limit cs) := by
  induction limit generalizing cs with
  | zero =>
    obtain rfl : cs = [] := List.length_eq_zero_iff.mp (Nat.le_zero.mp h)
    exact .stop nofun
  | succ limit ih =>
    rw [unwrapAll]
    split
    · next inner hunwrap =>
      obtain ⟨between, rfl, rfl⟩ := exists_of_unwrap? hunwrap
      have hstrip := length_strip_le between
      simp only [List.length_cons, List.length_append, List.length_nil] at h
      exact .turn (ih (by omega))
    · next hunwrap => exact .stop (unwrap?_eq_none_iff.mp hunwrap)

theorem PeelsTo.of_wrapped {inner core : List Char} (h : PeelsTo ('(' :: (inner ++ [')'])) core) :
    PeelsTo (strip inner) core := by
  generalize hcs : '(' :: (inner ++ [')']) = cs at h
  cases h with
  | stop h => exact absurd hcs.symm (h inner)
  | @turn inner' _ h =>
    obtain rfl : inner = inner' := List.append_cancel_right (List.cons.inj hcs).2
    exact h

/-- What is left is determined by the text. -/
theorem PeelsTo.unique {cs core core' : List Char} (h : PeelsTo cs core) (h' : PeelsTo cs core') :
    core = core' := by
  induction h with
  | @stop cs hstop =>
    cases h' with
    | stop _ => rfl
    | turn _ => exact absurd rfl (hstop _)
  | turn _ ih => exact ih h'.of_wrapped

/-! ### The word that is left -/

theorem mem_plainLetters_of_mem_nullWord : ∀ l ∈ nullWord, l ∈ plainLetters :=
  List.forall_iff_forall_mem.mp (by decide)

theorem stripped_of_spelled {cs : List Char} (h : Spelled cs nullWord) : Stripped cs :=
  .of_forall (not_isBlank_of_spelled mem_plainLetters_of_mem_nullWord h)

/-- Nothing can be peeled off the word. -/
theorem PeelsTo.of_spelled {cs : List Char} (h : Spelled cs nullWord) : PeelsTo cs cs := by
  refine .stop fun inner hcs => ?_
  rw [hcs] at h
  obtain ⟨hfirst, -⟩ := List.forall₂_cons.mp h
  revert hfirst
  decide

/-- A default value is null if the word is what is left of it. -/
theorem isNullDefault_iff_of_peelsTo {value : String} {core : List Char}
    (h : PeelsTo (strip value.toList) core) :
    isNullDefault value = true ↔ Spelled core nullWord := by
  have hlimit : (strip value.toList).length ≤ value.toList.length := length_strip_le _
  rw [isNullDefault, h.unique (peelsTo_unwrapAll hlimit),
    ← lower_eq_iff_spelled mem_plainLetters_of_mem_nullWord]
  exact beq_iff_eq

theorem exists_peelsTo (cs : List Char) : ∃ core, PeelsTo cs core :=
  ⟨_, peelsTo_unwrapAll (Nat.le_refl cs.length)⟩

/-! ### The grammar -/

theorem NullText.surrounded {cs before after : List Char} (h : NullText cs)
    (hbefore : ∀ c ∈ before, isBlank c = true) (hafter : ∀ c ∈ after, isBlank c = true) :
    NullText (before ++ cs ++ after) := by
  have hregroup : ∀ first middle last : List Char, before ++ (first ++ middle ++ last) ++ after =
      (before ++ first) ++ middle ++ (last ++ after) := by
    simp
  cases h with
  | word hfirst hword hlast =>
    rw [hregroup]
    exact .word (List.forall_mem_append.mpr ⟨hbefore, hfirst⟩) hword
      (List.forall_mem_append.mpr ⟨hlast, hafter⟩)
  | wrapped hfirst hinner hlast =>
    rw [hregroup]
    exact .wrapped (List.forall_mem_append.mpr ⟨hbefore, hfirst⟩) hinner
      (List.forall_mem_append.mpr ⟨hlast, hafter⟩)

theorem NullText.of_strip {cs : List Char} (h : NullText (strip cs)) : NullText cs := by
  obtain ⟨before, after, hcs, hbefore, hafter⟩ := exists_strip cs
  rw [hcs]
  exact h.surrounded hbefore hafter

/-- What is peeled down to the word is of the grammar. -/
theorem nullText_of_peelsTo {cs core : List Char} (h : PeelsTo cs core)
    (hcore : Spelled core nullWord) : NullText cs := by
  have hnone : ∀ c ∈ ([] : List Char), isBlank c = true := nofun
  induction h with
  | stop _ =>
    have hword := NullText.word hnone hcore hnone
    rwa [List.nil_append, List.append_nil] at hword
  | turn _ ih =>
    have hwrapped := NullText.wrapped hnone (ih hcore).of_strip hnone
    rwa [List.nil_append, List.append_nil] at hwrapped

theorem stripped_wrapped (inner : List Char) : Stripped ('(' :: (inner ++ [')'])) := by
  refine ⟨?_, ?_⟩
  · rintro c hc
    obtain rfl : '(' = c := Option.some.inj hc
    decide
  · intro c hc
    rw [← List.cons_append, List.getLast?_concat] at hc
    obtain rfl : ')' = c := Option.some.inj hc
    decide

/-- What is of the grammar is peeled down to the word. The induction follows the grammar from the
outside, as the peeling does. -/
theorem NullText.exists_peelsTo {cs : List Char} (h : NullText cs) :
    ∃ core, PeelsTo (strip cs) core ∧ Spelled core nullWord := by
  induction h with
  | word hbefore hword hafter =>
    rw [(stripped_of_spelled hword).strip_between hbefore hafter]
    exact ⟨_, .of_spelled hword, hword⟩
  | wrapped hbefore _ hafter ih =>
    obtain ⟨core, hpeels, hword⟩ := ih
    rw [(stripped_wrapped _).strip_between hbefore hafter]
    exact ⟨core, .turn hpeels, hword⟩

theorem isNullDefault_iff_nullText {value : String} :
    isNullDefault value = true ↔ NullText value.toList := by
  constructor
  · intro h
    obtain ⟨core, hpeels⟩ := exists_peelsTo (strip value.toList)
    exact (nullText_of_peelsTo hpeels ((isNullDefault_iff_of_peelsTo hpeels).mp h)).of_strip
  · intro h
    obtain ⟨core, hpeels, hword⟩ := h.exists_peelsTo
    exact (isNullDefault_iff_of_peelsTo hpeels).mpr hword

/-- Two texts are null alike if the same is left of them. -/
theorem isNullDefault_eq {v w : String}
    (h : ∀ core, PeelsTo (strip v.toList) core → PeelsTo (strip w.toList) core) :
    isNullDefault w = isNullDefault v := by
  obtain ⟨core, hpeels⟩ := exists_peelsTo (strip v.toList)
  rw [Bool.eq_iff_iff, isNullDefault_iff_of_peelsTo hpeels,
    isNullDefault_iff_of_peelsTo (h core hpeels)]

section Surrounded

variable {before after : String}

theorem isNullDefault_surrounded (value : String) (hbefore : isBlankString before = true)
    (hafter : isBlankString after = true) :
    isNullDefault (before ++ value ++ after) = isNullDefault value := by
  refine isNullDefault_eq fun core h => ?_
  rw [String.toList_append, String.toList_append,
    strip_surrounded (List.all_eq_true.mp hbefore) (List.all_eq_true.mp hafter)]
  exact h

theorem isNullDefault_wrapped (value : String) (hbefore : isBlankString before = true)
    (hafter : isBlankString after = true) :
    isNullDefault (before ++ "(" ++ value ++ ")" ++ after) = isNullDefault value := by
  have htext : (before ++ "(" ++ value ++ ")" ++ after).toList =
      before.toList ++ '(' :: (value.toList ++ [')']) ++ after.toList := by
    simp
  refine isNullDefault_eq fun core h => ?_
  rw [htext, (stripped_wrapped _).strip_between (List.all_eq_true.mp hbefore)
    (List.all_eq_true.mp hafter)]
  exact .turn h

end Surrounded

/-- **The texts of null.** Peeling ends on every text, and a default value is null if what is left
of it is the word. These are the texts of the grammar and no others. Further parentheses or blanks
around a text never change the answer, be it null or not. -/
theorem isNullDefault_language (value : String) :
    (∃! core, PeelsTo (strip value.toList) core) ∧
      (∀ core, PeelsTo (strip value.toList) core →
        (isNullDefault value = true ↔ Spelled core nullWord)) ∧
      (isNullDefault value = true ↔ NullText value.toList) ∧
      ∀ before after : String, isBlankString before = true → isBlankString after = true →
        isNullDefault (before ++ value ++ after) = isNullDefault value ∧
          isNullDefault (before ++ "(" ++ value ++ ")" ++ after) = isNullDefault value := by
  obtain ⟨core, hpeels⟩ := exists_peelsTo (strip value.toList)
  exact ⟨⟨core, hpeels, fun _ h => h.unique hpeels⟩, fun _ => isNullDefault_iff_of_peelsTo,
    isNullDefault_iff_nullText, fun _ _ hbefore hafter =>
      ⟨isNullDefault_surrounded value hbefore hafter, isNullDefault_wrapped value hbefore hafter⟩⟩

/-- Null in two pairs of parentheses, and two groups that no pair of parentheses encloses: both are
the same in further parentheses between blanks. -/
theorem isNullDefault_nested :
    let value := "\t( \u3000(nULl))"
    let groups := "(null) (null)"
    let before := " \u2003"
    let after := "\n"
    isBlankString before = true ∧ isBlankString after = true ∧ NullText value.toList ∧
      ¬ NullText groups.toList ∧
      isNullDefault (before ++ "(" ++ value ++ ")" ++ after) = true ∧
      isNullDefault (before ++ "(" ++ groups ++ ")" ++ after) = false ∧
      PeelsTo (strip groups.toList) "null) (null".toList := by
  intro value groups before after
  have hbefore : isBlankString before = true := by decide +kernel
  have hafter : isBlankString after = true := by decide +kernel
  have hvalue : isNullDefault value = true := by decide +kernel
  have hgroups : isNullDefault groups = false := by decide +kernel
  obtain ⟨-, -, hlanguage, hwrapped⟩ := isNullDefault_language value
  obtain ⟨⟨core, hpeels, -⟩, -, hlanguage', hwrapped'⟩ := isNullDefault_language groups
  have hrest : unwrapAll 20 (strip groups.toList) = "null) (null".toList := by decide +kernel
  refine ⟨hbefore, hafter, hlanguage.mp hvalue, ?_, (hwrapped before after hbefore hafter).2.trans
    hvalue, (hwrapped' before after hbefore hafter).2.trans hgroups, ?_⟩
  · exact mt hlanguage'.mpr (by rw [hgroups]; exact Bool.false_ne_true)
  · exact hrest ▸ peelsTo_unwrapAll (by decide +kernel)

end SchemaAudit.Lint
