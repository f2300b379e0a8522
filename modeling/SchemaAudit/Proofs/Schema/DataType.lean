import Mathlib.Data.List.Find
import Mathlib.Data.List.TakeWhile
import SchemaAudit.Proofs.Text.Folding
import SchemaAudit.Schema.DataType

/-!
# Classes of types and their definitions

Two things are done with the definition of a type. It is compared in small letters and with single
spaces, and its class is read off what is left of it without its parameters. The second does not
look at more than the first, so that definitions that are equal in the comparison have one class, as
long as their parameters stand on one line.

- `DropsTo`: a text and what is left of it without its parameters.
- `dropParameters_fold`, `spaced_dropParameters`: dropping the parameters goes together with small
  forms and with spacing.
- `ParametersOnLine`, `baseName_eq`: where no line ends between parentheses, the lines of a
  definition need not be looked at.
- `classify_eq_of_spaced`: the class depends on the spacing in small letters alone.
-/

namespace SchemaAudit.DataType

open Text

/-! ### Parameters -/

/-- A text, and what is left of it without what stands between its first opening and its last
closing parenthesis. -/
inductive DropsTo : List Char → List Char → Prop where
  /-- There is no opening parenthesis. -/
  | plain {cs : List Char} (h : '(' ∉ cs) : DropsTo cs cs
  /-- Behind the first opening parenthesis there is no closing one. -/
  | unclosed {before rest : List Char} (hbefore : '(' ∉ before) (hrest : ')' ∉ rest) :
    DropsTo (before ++ '(' :: rest) (before ++ '(' :: rest)
  | enclosed {before inner after : List Char} (hbefore : '(' ∉ before) (hafter : ')' ∉ after) :
    DropsTo (before ++ '(' :: (inner ++ ')' :: after)) (before ++ after)

/-- The characters of a text are others than one that is not in it. -/
theorem forall_mem_ne {c : Char} {cs : List Char} (h : c ∉ cs) :
    ∀ d ∈ cs, decide (d ≠ c) = true :=
  fun _ hd => decide_eq_true fun heq => h (heq ▸ hd)

theorem dropParameters_eq {cs ds : List Char} (h : DropsTo cs ds) : dropParameters cs = ds := by
  unfold dropParameters
  cases h with
  | plain h =>
    rw [List.dropWhile_eq_nil_iff.mpr (forall_mem_ne h)]
    rfl
  | @unclosed before rest hbefore hrest =>
    rw [dropWhile_append_cons (forall_mem_ne hbefore) (by simp), if_neg]
    simpa using hrest
  | @enclosed before inner after hbefore hafter =>
    have hreversed : ('(' :: (inner ++ ')' :: after)).reverse =
        after.reverse ++ ')' :: (inner.reverse ++ ['(']) := by
      simp
    have hlast : ')' ∉ after.reverse := by
      simpa using hafter
    rw [dropWhile_append_cons (forall_mem_ne hbefore) (by simp),
      takeWhile_append_cons (forall_mem_ne hbefore) (by simp), if_pos (by simp), hreversed,
      takeWhile_append_cons (forall_mem_ne hlast) (by simp), List.reverse_reverse]

theorem dropsTo_of_notMem {cs : List Char} (h : ')' ∉ cs) : DropsTo cs cs := by
  by_cases hopen : '(' ∈ cs
  · obtain ⟨before, rest, rfl, hbefore⟩ := List.eq_append_cons_of_mem hopen
    exact .unclosed hbefore fun hmem => h (by simp [hmem])
  · exact .plain hopen

/-- What follows the first opening parenthesis is kept if it has no closing one. -/
theorem DropsTo.append_tail {cs ds tail : List Char} (h : DropsTo cs ds) (hopen : '(' ∈ cs)
    (htail : ')' ∉ tail) : DropsTo (cs ++ tail) (ds ++ tail) := by
  cases h with
  | plain h => exact absurd hopen h
  | @unclosed before rest hbefore hrest =>
    have hrest' : ')' ∉ rest ++ tail := by
      simp [hrest, htail]
    rw [List.append_assoc, List.cons_append]
    exact .unclosed hbefore hrest'
  | @enclosed before inner after hbefore hafter =>
    have hafter' : ')' ∉ after ++ tail := by
      simp [hafter, htail]
    rw [List.append_assoc, List.append_assoc, List.cons_append, List.append_assoc, List.cons_append]
    exact .enclosed hbefore hafter'

/-- What comes before the first opening parenthesis is kept. -/
theorem DropsTo.append_head {cs ds head : List Char} (h : DropsTo cs ds) (hhead : '(' ∉ head) :
    DropsTo (head ++ cs) (head ++ ds) := by
  cases h with
  | plain h => exact .plain (by simp [hhead, h])
  | @unclosed before rest hbefore hrest =>
    rw [← List.append_assoc]
    exact .unclosed (by simp [hhead, hbefore]) hrest
  | @enclosed before inner after hbefore hafter =>
    rw [← List.append_assoc, ← List.append_assoc]
    exact .enclosed (by simp [hhead, hbefore]) hafter

theorem dropsTo_dropParameters (cs : List Char) : DropsTo cs (dropParameters cs) := by
  have hexists : ∃ ds, DropsTo cs ds := by
    by_cases hopen : '(' ∈ cs
    · obtain ⟨before, rest, rfl, hbefore⟩ := List.eq_append_cons_of_mem hopen
      by_cases hclose : ')' ∈ rest
      · have hlast := List.mem_reverse.mpr hclose
        obtain ⟨after, inner, hrest, hafter⟩ := List.eq_append_cons_of_mem hlast
        have heq : rest = inner.reverse ++ ')' :: after.reverse := by
          rw [← List.reverse_reverse rest, hrest]
          simp
        rw [heq]
        exact ⟨_, .enclosed hbefore (by simpa using hafter)⟩
      · exact ⟨_, .unclosed hbefore hclose⟩
    · exact ⟨_, .plain hopen⟩
  obtain ⟨ds, h⟩ := hexists
  exact dropParameters_eq h ▸ h

/-- Small forms neither bring parentheses nor take them away. -/
theorem DropsTo.fold {cs ds : List Char} (h : DropsTo cs ds) : DropsTo (fold cs) (fold ds) := by
  have hopen : IsParenthesis '(' := by
    decide
  have hclose : IsParenthesis ')' := by
    decide
  have hcons {p : Char} (hp : IsParenthesis p) (cs : List Char) :
      Text.fold (p :: cs) = p :: Text.fold cs := by
    rw [Text.fold, List.flatMap_cons, foldChar_of_isParenthesis hp]
    rfl
  cases h with
  | plain h => exact .plain (mt (mem_fold_iff hopen _).mp h)
  | unclosed hbefore hrest =>
    rw [fold_append, hcons hopen]
    exact .unclosed (mt (mem_fold_iff hopen _).mp hbefore) (mt (mem_fold_iff hclose _).mp hrest)
  | enclosed hbefore hafter =>
    rw [fold_append, fold_append, hcons hopen, fold_append, hcons hclose]
    exact .enclosed (mt (mem_fold_iff hopen _).mp hbefore) (mt (mem_fold_iff hclose _).mp hafter)

theorem dropParameters_fold (cs : List Char) :
    dropParameters (fold cs) = fold (dropParameters cs) :=
  dropParameters_eq (dropsTo_dropParameters cs).fold

/-! ### Spacing without parameters -/

/-- Spaced characters without what stands between parentheses. What follows the last one is behind a
gap if there is one there or before the first one. -/
def dropSpaced (ts : List Spaced) : List Spaced :=
  match ts.dropWhile (·.2 ≠ '(') with
  | [] => ts
  | (gap, _) :: rest =>
    if rest.any (·.2 = ')') then
      ts.takeWhile (·.2 ≠ '(') ++ behindGap gap (rest.reverse.takeWhile (·.2 ≠ ')')).reverse
    else ts

theorem forall_mem_spaced_ne {gap : Bool} {c : Char} {cs : List Char} (h : c ∉ cs) :
    ∀ t ∈ spaced gap cs, decide (t.2 ≠ c) = true :=
  fun _ ht => decide_eq_true fun heq => h (heq ▸ mem_of_mem_spaced ht)

/-- The spacing of a text without parameters depends on the spacing of the text. -/
theorem DropsTo.spaced {cs ds : List Char} (h : DropsTo cs ds) :
    spaced true ds = dropSpaced (spaced true cs) := by
  have hopen : isBlank '(' = false := by
    decide
  have hclose : isBlank ')' = false := by
    decide
  unfold dropSpaced
  cases h with
  | plain h => rw [List.dropWhile_eq_nil_iff.mpr (forall_mem_spaced_ne h)]
  | @unclosed before rest hbefore hrest =>
    have hnone : (Text.spaced false rest).any (·.2 = ')') = false := by
      refine List.any_eq_false.mpr fun t ht => ?_
      simpa using forall_mem_spaced_ne hrest t ht
    rw [spaced_append_cons hopen, dropWhile_append_cons (forall_mem_spaced_ne hbefore) (by simp)]
    simp [hnone]
  | @enclosed before inner after hbefore hafter =>
    have hany : (Text.spaced false (inner ++ ')' :: after)).any (·.2 = ')') = true := by
      rw [spaced_append_cons hclose]
      simp
    have hlast : ∀ t ∈ (Text.spaced false after).reverse, decide (t.2 ≠ ')') = true :=
      fun t ht => forall_mem_spaced_ne hafter t (List.mem_reverse.mp ht)
    have hreversed : ((Text.spaced false (inner ++ ')' :: after)).reverse.takeWhile
        (·.2 ≠ ')')).reverse = Text.spaced false after := by
      rw [spaced_append_cons hclose, List.reverse_append, List.reverse_cons, List.append_assoc,
        List.singleton_append, takeWhile_append_cons hlast (by simp), List.reverse_reverse]
    rw [spaced_append_cons hopen, dropWhile_append_cons (forall_mem_spaced_ne hbefore) (by simp),
      takeWhile_append_cons (forall_mem_spaced_ne hbefore) (by simp)]
    dsimp only
    rw [if_pos hany, hreversed, ← spaced_eq_behindGap, ← spaced_append]

theorem spaced_dropParameters {cs ds : List Char} (h : spaced true cs = spaced true ds) :
    spaced true (dropParameters cs) = spaced true (dropParameters ds) := by
  rw [(dropsTo_dropParameters cs).spaced, (dropsTo_dropParameters ds).spaced, h]

/-! ### Lines -/

/-- No line of a definition ends between an opening parenthesis and a later closing one. -/
def ParametersOnLine (cs : List Char) : Prop :=
  ∀ before inner after, cs = before ++ '(' :: (inner ++ ')' :: after) → '\n' ∉ inner

/-- Behind the first opening parenthesis, a line ends or a closing one follows, but not both in this
order. -/
theorem parametersOnLine_iff {cs : List Char} :
    ParametersOnLine cs ↔ ')' ∉ (cs.dropWhile (· ≠ '(')).dropWhile (· ≠ '\n') := by
  constructor
  · intro h hclose
    have hopen : '(' ∈ cs := by
      by_contra hopen
      rw [List.dropWhile_eq_nil_iff.mpr (forall_mem_ne hopen)] at hclose
      exact absurd hclose List.not_mem_nil
    obtain ⟨before, rest, rfl, hbefore⟩ := List.eq_append_cons_of_mem hopen
    rw [dropWhile_append_cons (forall_mem_ne hbefore) (by simp)] at hclose
    have hline : '\n' ∈ rest := by
      by_contra hline
      have hall : '\n' ∉ '(' :: rest := by
        simp [hline]
      rw [List.dropWhile_eq_nil_iff.mpr (forall_mem_ne hall)] at hclose
      exact absurd hclose List.not_mem_nil
    obtain ⟨first, more, rfl, hfirst⟩ := List.eq_append_cons_of_mem hline
    have hfirst' : '\n' ∉ '(' :: first := by
      simp [hfirst]
    rw [← List.cons_append, dropWhile_append_cons (forall_mem_ne hfirst') (by simp)] at hclose
    have hmore : ')' ∈ more := by
      simpa using hclose
    obtain ⟨inner, after, rfl⟩ := List.append_of_mem hmore
    exact h before (first ++ '\n' :: inner) after (by simp) (by simp)
  · rintro h before inner after rfl hline
    obtain ⟨first, more, rfl⟩ := List.append_of_mem hline
    refine h ?_
    have hregrouped : before.dropWhile (· ≠ '(') ++ '(' :: (first ++ '\n' :: more ++ ')' :: after) =
        (before.dropWhile (· ≠ '(') ++ '(' :: first) ++ '\n' :: (more ++ ')' :: after) := by
      simp
    rw [dropWhile_append_stop (by simp), hregrouped, dropWhile_append_stop (by simp)]
    simp

instance (cs : List Char) : Decidable (ParametersOnLine cs) :=
  decidable_of_iff _ parametersOnLine_iff.symm

/-- A text without its parameters, line by line. -/
def dropFromLines (cs : List Char) : List Char :=
  joinWith ['\n'] ((splitWhere (· == '\n') cs).map dropParameters)

theorem joinWith_cons {sep w : List Char} {ws : List (List Char)} (h : ws ≠ []) :
    joinWith sep (w :: ws) = w ++ sep ++ joinWith sep ws := by
  cases ws with
  | nil => exact absurd rfl h
  | cons v vs => rfl

theorem dropFromLines_line {line rest : List Char} (h : '\n' ∉ line) :
    dropFromLines (line ++ '\n' :: rest) = dropParameters line ++ '\n' :: dropFromLines rest := by
  have hne : (splitWhere (· == '\n') rest).map dropParameters ≠ [] := by
    rw [splitWhere_eq_splitOnP]
    exact mt List.map_eq_nil_iff.mp (List.splitOnP_ne_nil _ _)
  rw [dropFromLines, splitWhere_append_cons h, List.map_cons, joinWith_cons hne, List.append_assoc]
  rfl

/-- The first line and the others can be looked at by themselves: the parentheses of the first line
are closed there, or nowhere. -/
theorem dropParameters_line {line rest : List Char} (h : ParametersOnLine (line ++ '\n' :: rest)) :
    dropParameters (line ++ '\n' :: rest) = dropParameters line ++ '\n' :: dropParameters rest := by
  refine dropParameters_eq ?_
  by_cases hopen : '(' ∈ line
  · have hclose : ')' ∉ '\n' :: rest := by
      intro hclose
      obtain ⟨before, inner, rfl⟩ := List.append_of_mem hopen
      obtain ⟨inner', after, hrest⟩ := List.append_of_mem hclose
      cases inner' with
      | nil => cases hrest
      | cons c inner' =>
        obtain ⟨rfl, rfl⟩ := List.cons.inj hrest
        refine h before (inner ++ '\n' :: inner') after ?_ (by simp)
        simp
    have hrest : ')' ∉ rest := fun hmem => hclose (List.mem_cons_of_mem _ hmem)
    rw [dropParameters_eq (dropsTo_of_notMem hrest)]
    exact (dropsTo_dropParameters line).append_tail hopen hclose
  · have hhead : '(' ∉ line ++ ['\n'] := by
      simp [hopen]
    have hdrops := (dropsTo_dropParameters rest).append_head hhead
    rw [dropParameters_eq (.plain hopen)]
    simpa using hdrops

theorem ParametersOnLine.of_append {line rest : List Char} (h : ParametersOnLine (line ++ rest)) :
    ParametersOnLine rest := by
  rintro before inner after rfl
  exact h (line ++ before) inner after (by simp)

/-- Where no line ends between parentheses, it does not matter that lines are looked at one by one.
The induction is on the length, because a line is taken off at each step. -/
theorem dropFromLines_eq (cs : List Char) (h : ParametersOnLine cs) :
    dropFromLines cs = dropParameters cs := by
  by_cases hline : '\n' ∈ cs
  · obtain ⟨line, rest, rfl, hfirst⟩ := List.eq_append_cons_of_mem hline
    have hrest : ParametersOnLine rest := by
      rw [← List.singleton_append, ← List.append_assoc] at h
      exact h.of_append
    rw [dropFromLines_line hfirst, dropParameters_line h, dropFromLines_eq rest hrest]
  · rw [dropFromLines, splitWhere_of_notMem hline]
    rfl
termination_by cs.length
decreasing_by
  subst_vars
  simp
  omega

theorem baseName_eq {cs : List Char} (h : ParametersOnLine cs) :
    baseName cs = lower (strip (dropParameters cs)) := by
  rw [← dropFromLines_eq cs h]
  rfl

/-! ### Classes -/

/-- A fragment of the names of types is a word, and has no sigma. -/
theorem fragments_spec : ∀ f ∈ fragments, f.1.toList ≠ [] ∧
    f.1.toList.any isBlank = false ∧ 'ς' ∉ f.1.toList ∧ 'σ' ∉ f.1.toList := by
  decide +kernel

theorem spaced_fold_strip (cs : List Char) :
    spaced true (fold (strip cs)) = spaced true (fold cs) := by
  obtain ⟨before, after, hcs, hbefore, hafter⟩ := exists_strip cs
  have hfold : fold cs = before ++ fold (strip cs) ++ after :=
    calc
      fold cs = fold (before ++ strip cs ++ after) := congrArg fold hcs
      _ = before ++ fold (strip cs) ++ after := by
        rw [fold_append, fold_append, fold_of_blanks hbefore, fold_of_blanks hafter]
  rw [hfold, spaced_surrounded hbefore hafter]

/-- The class of a definition depends on its spacing in small letters alone. -/
theorem classify_eq_of_spaced {a b : String} (ha : ParametersOnLine a.toList)
    (hb : ParametersOnLine b.toList)
    (h : spaced true (lower a.toList) = spaced true (lower b.toList)) :
    classify a = classify b := by
  have hnames : spaced true (fold (strip (dropParameters a.toList))) =
      spaced true (fold (strip (dropParameters b.toList))) := by
    rw [spaced_fold_strip, spaced_fold_strip, ← dropParameters_fold, ← dropParameters_fold]
    exact spaced_dropParameters (spaced_fold h)
  have hoccurs : ∀ f ∈ fragments, occursIn f.1.toList (baseName a.toList) =
      occursIn f.1.toList (baseName b.toList) := by
    intro f hf
    obtain ⟨hne, hblanks, hfinal, hsigma⟩ := fragments_spec f hf
    have hword : ∀ c ∈ f.1.toList, isBlank c = false := fun c hc =>
      Bool.eq_false_iff.mpr (List.any_eq_false.mp hblanks c hc)
    rw [baseName_eq ha, baseName_eq hb, occursIn_lower_eq hfinal hsigma,
      occursIn_lower_eq hfinal hsigma]
    exact occursIn_eq_of_spaced hne hword hnames
  unfold classify
  dsimp only
  rw [List.find?_congr hoccurs]

end SchemaAudit.DataType
