import SchemaAudit.Proofs.Schema.DataType

/-!
# Parameters do not decide the class of a type

The parameters of a type stand in parentheses behind its name, and more of the name can follow them,
as in `timestamp(3) with time zone`. They can hold any text on one line, with further parentheses
and with the names of other types in it. What comes before has no opening parenthesis and what
follows has no closing one, so the parentheses of the parameters are the first opening and the last
closing one. They go with all that is between them, and nothing else goes.

- `dropsTo_parameters`, `dropsTo_joined`: what is left with the parameters and without them.
- `DecidedBy`: the class that the fragments of type names give to a text.
- `classify_parameters`: a definition has the class that its two outer parts have together.
-/

namespace SchemaAudit.DataType

open Text

section Parts

variable {front inner rear : List Char}

/-! ### What is left of the text -/

theorem parametersOnLine_parameters (hfront : '(' ∉ front) (hinner : '\n' ∉ inner)
    (hrear : ')' ∉ rear) : ParametersOnLine (front ++ '(' :: (inner ++ ')' :: rear)) := by
  have hline : '\n' ∉ '(' :: (inner ++ [')']) := by
    simp [hinner]
  have hsplit : '(' :: (inner ++ ')' :: rear) = '(' :: (inner ++ [')']) ++ rear := by
    simp
  rw [parametersOnLine_iff, dropWhile_append_cons (forall_mem_ne hfront) (by simp), hsplit,
    List.dropWhile_append_of_pos (forall_mem_ne hline)]
  exact fun hmem => hrear ((List.dropWhile_sublist _).subset hmem)

theorem dropsTo_parameters (hfront : '(' ∉ front) (hrear : ')' ∉ rear) :
    DropsTo (front ++ '(' :: (inner ++ ')' :: rear)) (front ++ rear) :=
  .enclosed hfront hrear

/-- Where no parentheses enclose anything, a line can end anywhere. -/
theorem parametersOnLine_joined (hfront : '(' ∉ front) (hrear : ')' ∉ rear) :
    ParametersOnLine (front ++ rear) := by
  rw [parametersOnLine_iff, List.dropWhile_append_of_pos (forall_mem_ne hfront)]
  intro hmem
  have hbehind := (List.dropWhile_sublist _).subset hmem
  exact hrear ((List.dropWhile_sublist _).subset hbehind)

/-- The two outer parts can have parentheses, closing ones in front of opening ones. Put together,
they have no parameters. -/
theorem dropsTo_joined (hfront : '(' ∉ front) (hrear : ')' ∉ rear) :
    DropsTo (front ++ rear) (front ++ rear) :=
  (dropsTo_of_notMem hrear).append_head hfront

theorem baseName_parameters (hfront : '(' ∉ front) (hinner : '\n' ∉ inner) (hrear : ')' ∉ rear) :
    baseName (front ++ '(' :: (inner ++ ')' :: rear)) = lower (strip (front ++ rear)) := by
  rw [baseName_eq (parametersOnLine_parameters hfront hinner hrear),
    dropParameters_eq (dropsTo_parameters hfront hrear)]

theorem baseName_joined (hfront : '(' ∉ front) (hrear : ')' ∉ rear) :
    baseName (front ++ rear) = lower (strip (front ++ rear)) := by
  rw [baseName_eq (parametersOnLine_joined hfront hrear),
    dropParameters_eq (dropsTo_joined hfront hrear)]

end Parts

/-! ### The fragment that decides -/

/-- The class of a text by the fragments of type names that occur in it: the first one in the list
decides. -/
inductive DecidedBy (name : List Char) : DataType → Prop where
  | fragment {before after : List (String × DataType)} {f : String} {d : DataType}
    (hsplit : fragments = before ++ (f, d) :: after) (hoccurs : f.toList <:+: name)
    (hfirst : ∀ g ∈ before, ¬ g.1.toList <:+: name) : DecidedBy name d
  | unknown (h : ∀ g ∈ fragments, ¬ g.1.toList <:+: name) : DecidedBy name .unknown

/-- Outer blanks hide no fragment and bring none. -/
theorem infix_lower_strip_iff {f : String × DataType} (hf : f ∈ fragments) (cs : List Char) :
    f.1.toList <:+: lower (strip cs) ↔ f.1.toList <:+: lower cs := by
  obtain ⟨hne, hblanks, hfinal, hsigma⟩ := fragments_spec f hf
  have hword : ∀ c ∈ f.1.toList, isBlank c = false := fun c hc =>
    Bool.eq_false_iff.mpr (List.any_eq_false.mp hblanks c hc)
  rw [← occursIn_iff, ← occursIn_iff, occursIn_lower_eq hfinal hsigma,
    occursIn_lower_eq hfinal hsigma, occursIn_eq_of_spaced hne hword (spaced_fold_strip cs)]

/-- The class of a definition is decided by what is left of it, in small letters. -/
theorem decidedBy_of_baseName {definition : String} {cs : List Char}
    (h : baseName definition.toList = lower (strip cs)) :
    DecidedBy (lower cs) (classify definition) := by
  unfold classify
  dsimp only
  rw [h]
  split
  · next f hfound =>
    obtain ⟨hoccurs, before, after, hsplit, hfirst⟩ := List.find?_eq_some_iff_append.mp hfound
    have hmem : ∀ g ∈ before, g ∈ fragments := fun g hg => hsplit ▸ List.mem_append_left _ hg
    have hf : f ∈ fragments := List.mem_of_find?_eq_some hfound
    refine .fragment hsplit ((infix_lower_strip_iff hf cs).mp (occursIn_iff.mp hoccurs)) ?_
    intro g hg hinfix
    have hoccurs' := occursIn_iff.mpr ((infix_lower_strip_iff (hmem g hg) cs).mpr hinfix)
    have hnot := hfirst g hg
    rw [hoccurs'] at hnot
    exact absurd hnot Bool.false_ne_true
  · next hnone =>
    refine .unknown fun g hg hinfix => List.find?_eq_none.mp hnone g hg ?_
    exact occursIn_iff.mpr ((infix_lower_strip_iff hg cs).mpr hinfix)

/-- **Parameters do not matter.** A definition with any parameters on one line, behind a text
without an opening parenthesis and in front of a text without a closing one, has the class of these
two texts put together, and there the first fragment decides that occurs in small letters. -/
theorem classify_parameters {front inner rear : String} (hfront : '(' ∉ front.toList)
    (hinner : '\n' ∉ inner.toList) (hrear : ')' ∉ rear.toList) :
    classify (front ++ "(" ++ inner ++ ")" ++ rear) = classify (front ++ rear) ∧
      DecidedBy (lower (front ++ rear).toList)
        (classify (front ++ "(" ++ inner ++ ")" ++ rear)) := by
  have hdefinition : (front ++ "(" ++ inner ++ ")" ++ rear).toList =
      front.toList ++ '(' :: (inner.toList ++ ')' :: rear.toList) := by
    simp
  have hname : baseName (front ++ "(" ++ inner ++ ")" ++ rear).toList =
      lower (strip (front ++ rear).toList) := by
    rw [hdefinition, String.toList_append]
    exact baseName_parameters hfront hinner hrear
  have hjoined : baseName (front ++ rear).toList = lower (strip (front ++ rear).toList) := by
    rw [String.toList_append]
    exact baseName_joined hfront hrear
  refine ⟨?_, decidedBy_of_baseName hname⟩
  unfold classify
  rw [hname, hjoined]

/-- The parameters have parentheses that do not match, and the name of a type that comes first in
the list. In front of them stands a closing parenthesis, and behind them are an opening one and a
line break. The word that decides is put together from the two sides. -/
theorem classify_splitWord :
    let front := " )Da"
    let inner := "interval)) ((point"
    let rear := "te (\nTIME"
    '(' ∉ front.toList ∧ '\n' ∉ inner.toList ∧ ')' ∉ rear.toList ∧
      DecidedBy (lower (front ++ rear).toList) .date ∧
      classify (front ++ "(" ++ inner ++ ")" ++ rear) = .date ∧ classify (front ++ rear) = .date ∧
      classify inner = .interval := by
  intro front inner rear
  have hfront : '(' ∉ front.toList := by decide +kernel
  have hinner : '\n' ∉ inner.toList := by decide +kernel
  have hrear : ')' ∉ rear.toList := by decide +kernel
  have hclass : classify (front ++ rear) = .date := by decide +kernel
  obtain ⟨heq, hdecided⟩ := classify_parameters hfront hinner hrear
  have hwhole := heq.trans hclass
  exact ⟨hfront, hinner, hrear, hwhole ▸ hdecided, hwhole, hclass, by decide +kernel⟩

end SchemaAudit.DataType
