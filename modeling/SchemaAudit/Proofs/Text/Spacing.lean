import Mathlib.Data.List.TakeWhile
import SchemaAudit.Text.Blank

/-!
# Spacing

Two texts can differ in their blanks alone: in how many stand in one place and which ones, but not
in whether any stand there. What such texts have in common are their characters that are not blank,
each with whether a blank stands before it. The start of a text counts as a blank.

- `spaced`: these characters. A text is read from left to right, so that the reading of a text in
  two parts goes on behind the first part as this one ends (`spaced_append`).
- `spaced_surrounded`, `spaced_joinWith_words`: outer blanks do not matter, and neither does how
  words are joined.
- `Stripped`: a text without outer blanks, which is what stripping makes and leaves alone.
- `occursIn_eq_of_spaced`: whether a word occurs in a text depends on the spacing alone.
-/

namespace SchemaAudit.Text

/-- A character that is not blank, and whether a blank stands before it. -/
abbrev Spaced := Bool × Char

/-- The characters of a text that are not blank, each with whether a blank stands before it. For the
first one `gap` says this of what is before the text. -/
def spaced (gap : Bool) : List Char → List Spaced
  | [] => []
  | c :: cs => if isBlank c then spaced true cs else (gap, c) :: spaced false cs

/-- Whether what comes behind a text comes behind a blank. -/
def gapAfter (gap : Bool) : List Char → Bool
  | [] => gap
  | c :: cs => gapAfter (isBlank c) cs

variable {gap : Bool} {c : Char} {cs ds : List Char}

theorem spaced_cons_of_blank (h : isBlank c = true) : spaced gap (c :: cs) = spaced true cs := by
  rw [spaced, if_pos h]

theorem spaced_cons_of_not_blank (h : isBlank c = false) :
    spaced gap (c :: cs) = (gap, c) :: spaced false cs := by
  rw [spaced, if_neg (by simp [h])]

theorem spaced_append :
    ∀ {gap : Bool} {cs : List Char},
      spaced gap (cs ++ ds) = spaced gap cs ++ spaced (gapAfter gap cs) ds
  | _, [] => rfl
  | gap, c :: cs => by
    rw [List.cons_append, gapAfter]
    cases h : isBlank c with
    | true => rw [spaced_cons_of_blank h, spaced_cons_of_blank h, spaced_append]
    | false =>
      rw [spaced_cons_of_not_blank h, spaced_cons_of_not_blank h, spaced_append, List.cons_append]

/-- Behind a character that is not blank there is no gap, and the character keeps its own. -/
theorem spaced_append_cons (h : isBlank c = false) :
    spaced gap (cs ++ c :: ds) = spaced gap cs ++ (gapAfter gap cs, c) :: spaced false ds := by
  rw [spaced_append, spaced_cons_of_not_blank h]

/-- The characters are those of the text. -/
theorem mem_of_mem_spaced {t : Spaced} :
    ∀ {gap : Bool} {cs : List Char}, t ∈ spaced gap cs → t.2 ∈ cs
  | _, [], h => absurd h List.not_mem_nil
  | gap, c :: cs, h => by
    cases hc : isBlank c with
    | true =>
      rw [spaced_cons_of_blank hc] at h
      exact List.mem_cons_of_mem c (mem_of_mem_spaced h)
    | false =>
      rw [spaced_cons_of_not_blank hc] at h
      rcases List.mem_cons.mp h with rfl | h
      · exact List.mem_cons_self
      · exact List.mem_cons_of_mem c (mem_of_mem_spaced h)

/-! ### Gaps -/

/-- The same characters behind a gap, if there is one. -/
def behindGap (gap : Bool) : List Spaced → List Spaced
  | [] => []
  | (g, c) :: ts => (gap || g, c) :: ts

/-- What comes before a text says nothing but whether there is a gap. -/
theorem spaced_eq_behindGap : ∀ {gap : Bool} {cs : List Char},
    spaced gap cs = behindGap gap (spaced false cs)
  | _, [] => rfl
  | gap, c :: cs => by
    cases h : isBlank c with
    | true =>
      rw [spaced_cons_of_blank h, spaced_cons_of_blank h, spaced_eq_behindGap]
      cases spaced false cs with
      | nil => rfl
      | cons t ts => simp [behindGap]
    | false =>
      rw [spaced_cons_of_not_blank h, spaced_cons_of_not_blank h]
      simp [behindGap]

/-! ### Outer blanks -/

theorem spaced_of_blanks (h : ∀ c ∈ cs, isBlank c = true) : spaced gap cs = [] := by
  induction cs generalizing gap with
  | nil => rfl
  | cons c cs ih =>
    obtain ⟨hc, hcs⟩ := List.forall_mem_cons.mp h
    rw [spaced_cons_of_blank hc]
    exact ih hcs

theorem gapAfter_of_blanks (h : ∀ c ∈ cs, isBlank c = true) : gapAfter true cs = true := by
  induction cs with
  | nil => rfl
  | cons c cs ih =>
    obtain ⟨hc, hcs⟩ := List.forall_mem_cons.mp h
    rw [gapAfter, hc]
    exact ih hcs

/-- Before and behind a text blanks do not matter. -/
theorem spaced_surrounded {before after : List Char} (hbefore : ∀ c ∈ before, isBlank c = true)
    (hafter : ∀ c ∈ after, isBlank c = true) :
    spaced true (before ++ cs ++ after) = spaced true cs := by
  rw [spaced_append, spaced_append, spaced_of_blanks hbefore, spaced_of_blanks hafter,
    gapAfter_of_blanks hbefore, List.nil_append, List.append_nil]

/-- Nothing but blanks is taken from the end of a text. -/
theorem exists_stripEnd (cs : List Char) :
    ∃ after, cs = stripEnd cs ++ after ∧ ∀ c ∈ after, isBlank c = true := by
  induction cs with
  | nil => exact ⟨[], rfl, nofun⟩
  | cons c cs ih =>
    obtain ⟨after, hcs, hafter⟩ := ih
    rw [stripEnd]
    cases hstripped : stripEnd cs with
    | nil =>
      rw [hstripped, List.nil_append] at hcs
      cases hc : isBlank c with
      | true => exact ⟨c :: after, by simp [hcs], List.forall_mem_cons.mpr ⟨hc, hafter⟩⟩
      | false => exact ⟨after, by simp [hcs], hafter⟩
    | cons d ds =>
      rw [hstripped] at hcs
      exact ⟨after, by rw [hcs]; rfl, hafter⟩

/-- A text is its stripped form between blanks. -/
theorem exists_strip (cs : List Char) :
    ∃ before after, cs = before ++ strip cs ++ after ∧ (∀ c ∈ before, isBlank c = true) ∧
      ∀ c ∈ after, isBlank c = true := by
  obtain ⟨after, hafter, hblank⟩ := exists_stripEnd (stripStart cs)
  refine ⟨cs.takeWhile isBlank, after, ?_, fun c hc => ?_, hblank⟩
  · rw [strip, List.append_assoc, ← hafter]
    exact List.takeWhile_append_dropWhile.symm
  · exact List.all_eq_true.mp List.all_takeWhile c hc

theorem length_strip_le (cs : List Char) : (strip cs).length ≤ cs.length := by
  obtain ⟨before, after, hcs, -, -⟩ := exists_strip cs
  have hlength := congrArg List.length hcs
  simp only [List.length_append] at hlength
  omega

/-- A text has no blanks at its ends. -/
structure Stripped (cs : List Char) : Prop where
  first : ∀ c ∈ cs.head?, isBlank c = false
  last : ∀ c ∈ cs.getLast?, isBlank c = false

theorem Stripped.of_forall (h : ∀ c ∈ cs, isBlank c = false) : Stripped cs :=
  ⟨fun c hc => h c (List.mem_of_mem_head? hc), fun c hc => h c (List.mem_of_mem_getLast? hc)⟩

theorem getLast?_stripEnd (cs : List Char) : ∀ c ∈ (stripEnd cs).getLast?, isBlank c = false := by
  induction cs with
  | nil => exact nofun
  | cons c cs ih =>
    rw [stripEnd]
    cases hstripped : stripEnd cs with
    | nil =>
      cases hc : isBlank c with
      | true => exact nofun
      | false =>
        intro d hd
        obtain rfl : c = d := Option.some.inj hd
        exact hc
    | cons d ds =>
      rw [hstripped] at ih
      intro b hb
      exact ih b (by rwa [List.getLast?_cons_cons] at hb)

/-- All blanks are taken from the end of a text. -/
theorem stripEnd_append_blanks {after : List Char} (hlast : ∀ c ∈ cs.getLast?, isBlank c = false)
    (hafter : ∀ c ∈ after, isBlank c = true) : stripEnd (cs ++ after) = cs := by
  induction cs with
  | nil =>
    induction after with
    | nil => rfl
    | cons a after ih =>
      obtain ⟨ha, hrest⟩ := List.forall_mem_cons.mp hafter
      have hnil : stripEnd after = [] := ih hrest
      rw [List.nil_append, stripEnd, hnil]
      exact if_pos ha
  | cons c cs ih =>
    rw [List.cons_append, stripEnd]
    cases cs with
    | nil =>
      have hc : isBlank c = false := hlast c rfl
      rw [ih nofun, hc]
      rfl
    | cons d ds => rw [ih fun b hb => hlast b (by rwa [List.getLast?_cons_cons])]

/-- What is stripped has no blanks at its ends. -/
theorem stripped_strip (cs : List Char) : Stripped (strip cs) := by
  refine ⟨fun c hc => ?_, getLast?_stripEnd (stripStart cs)⟩
  obtain ⟨after, hsplit, -⟩ := exists_stripEnd (stripStart cs)
  have hfirst : (stripStart cs).head? = some c := by
    have hstripped : (stripEnd (stripStart cs)).head? = some c := hc
    rw [hsplit, List.head?_append, hstripped]
    rfl
  have hnot := List.head?_dropWhile_not isBlank cs
  have hhead : (cs.dropWhile isBlank).head? = some c := hfirst
  rwa [hhead] at hnot

/-- What is stripped of the blanks around a text without outer blanks is the text. -/
theorem Stripped.strip_between {before after : List Char} (h : Stripped cs)
    (hbefore : ∀ c ∈ before, isBlank c = true) (hafter : ∀ c ∈ after, isBlank c = true) :
    strip (before ++ cs ++ after) = cs := by
  rw [strip, stripStart, List.append_assoc, List.dropWhile_append_of_pos hbefore]
  cases cs with
  | nil =>
    rw [List.nil_append, List.dropWhile_eq_nil_iff.mpr hafter]
    rfl
  | cons c cs =>
    have hc : isBlank c = false := h.first c rfl
    rw [List.cons_append, List.dropWhile_cons_of_neg (by simp [hc]), ← List.cons_append]
    exact stripEnd_append_blanks h.last hafter

theorem Stripped.strip_eq (h : Stripped cs) : strip cs = cs := by
  have hnone : ∀ c ∈ ([] : List Char), isBlank c = true := nofun
  have hbetween := h.strip_between hnone hnone
  rwa [List.nil_append, List.append_nil] at hbetween

/-- Blanks around a text do not matter to what is left of it. -/
theorem strip_surrounded {before after : List Char} (hbefore : ∀ c ∈ before, isBlank c = true)
    (hafter : ∀ c ∈ after, isBlank c = true) : strip (before ++ cs ++ after) = strip cs := by
  obtain ⟨first, last, hcs, hfirst, hlast⟩ := exists_strip cs
  have hsplit : before ++ cs ++ after = (before ++ first) ++ strip cs ++ (last ++ after) :=
    calc
      before ++ cs ++ after = before ++ (first ++ strip cs ++ last) ++ after := by rw [← hcs]
      _ = (before ++ first) ++ strip cs ++ (last ++ after) := by simp only [List.append_assoc]
  rw [hsplit]
  exact (stripped_strip cs).strip_between (List.forall_mem_append.mpr ⟨hbefore, hfirst⟩)
    (List.forall_mem_append.mpr ⟨hlast, hafter⟩)

theorem stripped_iff : Stripped cs ↔ strip cs = cs :=
  ⟨Stripped.strip_eq, fun h => h ▸ stripped_strip cs⟩

/-! ### Pieces and words -/

section Splitting

variable {α : Type} {p : α → Bool} {a : α} {before rest : List α}

theorem takeWhile_append_cons (hbefore : ∀ b ∈ before, p b = true) (ha : p a = false) :
    (before ++ a :: rest).takeWhile p = before := by
  rw [List.takeWhile_append_of_pos hbefore, List.takeWhile_cons_of_neg (by simp [ha]),
    List.append_nil]

/-- What starts with a character that is not passed over is kept. -/
theorem dropWhile_append_stop (ha : p a = false) :
    (before ++ a :: rest).dropWhile p = before.dropWhile p ++ a :: rest := by
  induction before with
  | nil => rw [List.nil_append, List.dropWhile_cons_of_neg (by simp [ha])]; rfl
  | cons b before ih =>
    cases hb : p b with
    | true =>
      rw [List.cons_append, List.dropWhile_cons_of_pos hb, List.dropWhile_cons_of_pos hb, ih]
    | false =>
      have hneg : ¬ p b = true := by
        simp [hb]
      rw [List.cons_append, List.dropWhile_cons_of_neg hneg, List.dropWhile_cons_of_neg hneg,
        List.cons_append]

theorem dropWhile_append_cons (hbefore : ∀ b ∈ before, p b = true) (ha : p a = false) :
    (before ++ a :: rest).dropWhile p = a :: rest := by
  rw [dropWhile_append_stop ha, List.dropWhile_eq_nil_iff.mpr hbefore, List.nil_append]

end Splitting

/-- The pieces of a text are those of the library's splitting. -/
theorem splitWhere_eq_splitOnP (p : Char → Bool) (cs : List Char) :
    splitWhere p cs = cs.splitOnP p := by
  induction cs with
  | nil => rw [splitWhere, List.splitOnP_nil]
  | cons c cs ih =>
    rw [splitWhere, List.splitOnP_cons_eq_if_modifyHead, ih]
    split
    · rfl
    · cases h : cs.splitOnP p with
      | nil => exact absurd h (List.splitOnP_ne_nil p cs)
      | cons w ws => rfl

theorem beq_false_of_notMem {sep : Char} (h : sep ∉ cs) : ∀ d ∈ cs, (d == sep) = false :=
  fun _ hd => beq_false_of_ne fun heq => h (heq ▸ hd)

/-- A text without separators is a single piece. -/
theorem splitWhere_of_notMem {sep : Char} (h : sep ∉ cs) : splitWhere (· == sep) cs = [cs] := by
  rw [splitWhere_eq_splitOnP]
  exact List.splitOnP_eq_singleton (beq_false_of_notMem h)

/-- The first piece ends at the first separator. -/
theorem splitWhere_append_cons {sep : Char} (h : sep ∉ cs) :
    splitWhere (· == sep) (cs ++ sep :: ds) = cs :: splitWhere (· == sep) ds := by
  rw [splitWhere_eq_splitOnP, splitWhere_eq_splitOnP]
  exact List.splitOnP_append_cons_of_forall_mem (beq_false_of_notMem h) _ (beq_self_eq_true sep) ds

/-- A blank in front of the pieces is stripped from the first of them. -/
theorem strip_splitWhere_cons {sep : Char} (hblank : isBlank c = true) (hsep : c ≠ sep) :
    (splitWhere (· == sep) (c :: cs)).map strip = (splitWhere (· == sep) cs).map strip := by
  rw [splitWhere, if_neg (by rwa [beq_iff_eq])]
  cases hsplit : splitWhere (· == sep) cs with
  | nil =>
    rw [splitWhere_eq_splitOnP] at hsplit
    exact absurd hsplit (List.splitOnP_ne_nil _ cs)
  | cons w ws =>
    have hstart : stripStart (c :: w) = stripStart w := by
      rw [stripStart, List.dropWhile_cons_of_pos hblank, stripStart]
    rw [List.map_cons, List.map_cons, strip, hstart, strip]

/-- Pieces that are joined by a separator and a blank are found again, but for the blanks around
them. -/
theorem strip_splitWhere_intercalate {sep : Char} (hblank : isBlank c = true) (hsep : c ≠ sep) :
    ∀ {ws : List (List Char)}, ws ≠ [] → (∀ w ∈ ws, sep ∉ w) →
      (splitWhere (· == sep) ([sep, c].intercalate ws)).map strip = ws.map strip
  | [], hne, _ => absurd rfl hne
  | [w], _, hws => by
    rw [List.intercalate_singleton, splitWhere_of_notMem (hws w List.mem_cons_self)]
  | w :: v :: ws, _, hws => by
    obtain ⟨hw, hvs⟩ := List.forall_mem_cons.mp hws
    have hrest := strip_splitWhere_intercalate hblank hsep (List.cons_ne_nil v ws) hvs
    rw [List.intercalate_cons_cons, List.append_assoc, List.cons_append,
      splitWhere_append_cons hw, List.map_cons, List.singleton_append,
      strip_splitWhere_cons hblank hsep, hrest]
    rfl

/-- The characters of a word that has no blanks in it. -/
def spacedWord (gap : Bool) : List Char → List Spaced
  | [] => []
  | c :: cs => (gap, c) :: cs.map fun d => (false, d)

theorem spaced_of_not_blank (h : ∀ c ∈ cs, isBlank c = false) :
    spaced gap cs = spacedWord gap cs := by
  induction cs generalizing gap with
  | nil => rfl
  | cons c cs ih =>
    obtain ⟨hc, hcs⟩ := List.forall_mem_cons.mp h
    rw [spaced_cons_of_not_blank hc, ih hcs]
    cases cs with
    | nil => rfl
    | cons d ds => rfl

/-- A text has the characters of its pieces, the first of which follows what is before the text. -/
theorem spaced_eq_pieces : ∀ (gap : Bool) (cs : List Char),
    ∃ w ws, splitWhere isBlank cs = w :: ws ∧
      spaced gap cs = spacedWord gap w ++ (ws.filter (!·.isEmpty)).flatMap (spacedWord true)
  | _, [] => ⟨[], [], rfl, rfl⟩
  | gap, c :: cs => by
    cases hc : isBlank c with
    | true =>
      obtain ⟨w, ws, hsplit, hspaced⟩ := spaced_eq_pieces true cs
      refine ⟨[], w :: ws, ?_, ?_⟩
      · rw [splitWhere, if_pos hc, hsplit]
      · rw [spaced_cons_of_blank hc, hspaced]
        cases w with
        | nil => rfl
        | cons d ds => rfl
    | false =>
      obtain ⟨w, ws, hsplit, hspaced⟩ := spaced_eq_pieces false cs
      refine ⟨c :: w, ws, ?_, ?_⟩
      · rw [splitWhere, if_neg (by simp [hc]), hsplit]
      · rw [spaced_cons_of_not_blank hc, hspaced]
        cases w with
        | nil => rfl
        | cons d ds => rfl

theorem spaced_eq_words : spaced true cs = (words cs).flatMap (spacedWord true) := by
  obtain ⟨w, ws, hsplit, hspaced⟩ := spaced_eq_pieces true cs
  rw [words, hsplit, hspaced]
  cases w with
  | nil => rfl
  | cons c w => rfl

theorem not_of_mem_splitWhere {p : Char → Bool} :
    ∀ (cs : List Char), ∀ w ∈ splitWhere p cs, ∀ c ∈ w, p c = false
  | [], w, hw, c, hc => by
    rw [List.mem_singleton.mp hw] at hc
    exact absurd hc List.not_mem_nil
  | d :: ds, w, hw, c, hc => by
    have ih := not_of_mem_splitWhere (p := p) ds
    rw [splitWhere] at hw
    split at hw
    · rcases List.mem_cons.mp hw with rfl | hw
      · exact absurd hc List.not_mem_nil
      · exact ih w hw c hc
    · next hd =>
      split at hw
      · rw [List.mem_singleton.mp hw, List.mem_singleton] at hc
        rw [hc]
        exact Bool.eq_false_iff.mpr hd
      · next v vs hsplit =>
        rw [hsplit] at ih
        rcases List.mem_cons.mp hw with rfl | hw
        · rcases List.mem_cons.mp hc with rfl | hc
          · exact Bool.eq_false_iff.mpr hd
          · exact ih v List.mem_cons_self c hc
        · exact ih w (List.mem_cons_of_mem v hw) c hc

theorem spaced_joinWith : ∀ {ws : List (List Char)}, (∀ w ∈ ws, ∀ c ∈ w, isBlank c = false) →
    spaced true (joinWith [' '] ws) = ws.flatMap (spacedWord true)
  | [], _ => rfl
  | [w], h => by
    rw [joinWith, spaced_of_not_blank (h w List.mem_cons_self), List.flatMap_cons, List.flatMap_nil,
      List.append_nil]
  | w :: v :: ws, h => by
    obtain ⟨hw, hws⟩ := List.forall_mem_cons.mp h
    have hgap : gapAfter (gapAfter true w) [' '] = true := rfl
    have hspace : ∀ gap, spaced gap [' '] = [] := fun _ => rfl
    rw [joinWith, List.append_assoc, spaced_append, spaced_append, hgap, hspace, List.nil_append,
      spaced_joinWith hws, spaced_of_not_blank hw]
    rfl

/-- The words of a text, joined with single spaces, are spaced as the text. -/
theorem spaced_joinWith_words : spaced true (joinWith [' '] (words cs)) = spaced true cs := by
  have hwords : ∀ w ∈ words cs, ∀ c ∈ w, isBlank c = false := fun w hw =>
    not_of_mem_splitWhere cs w (List.mem_filter.mp hw).1
  rw [spaced_joinWith hwords, spaced_eq_words]

/-! ### Occurrences -/

theorem occursIn_iff {part : List Char} : ∀ {cs : List Char}, occursIn part cs = true ↔ part <:+: cs
  | [] => by rw [occursIn, List.isEmpty_iff, List.infix_nil]
  | c :: cs => by
    rw [occursIn, Bool.or_eq_true, List.isPrefixOf_iff_prefix, occursIn_iff, List.infix_cons_iff]

/-- The first character behind a gap keeps the gap. -/
theorem gap_of_spaced_true {t : Spaced} {ts : List Spaced} :
    ∀ {cs : List Char}, spaced true cs = t :: ts → t.1 = true
  | [], h => nomatch h
  | c :: cs, h => by
    cases hc : isBlank c with
    | true =>
      rw [spaced_cons_of_blank hc] at h
      exact gap_of_spaced_true h
    | false =>
      rw [spaced_cons_of_not_blank hc] at h
      rw [← (List.cons.inj h).1]

/-- A text that goes on like the rest of a word starts with the characters of this rest. -/
theorem prefix_of_spaced {ts : List Spaced} :
    ∀ {w cs : List Char}, spaced false cs = (w.map fun d => (false, d)) ++ ts → w <+: cs
  | [], cs, _ => List.nil_prefix
  | _ :: _, [], h => nomatch h
  | d :: w, c :: cs, h => by
    cases hc : isBlank c with
    | true =>
      rw [spaced_cons_of_blank hc] at h
      exact absurd (gap_of_spaced_true h) Bool.false_ne_true
    | false =>
      rw [spaced_cons_of_not_blank hc, List.map_cons, List.cons_append] at h
      obtain ⟨hfirst, hrest⟩ := List.cons.inj h
      obtain rfl : c = d := congrArg Prod.snd hfirst
      exact List.cons_prefix_cons.mpr ⟨rfl, prefix_of_spaced hrest⟩

theorem infix_of_spaced {g : Bool} {d : Char} {w : List Char} {after : List Spaced} :
    ∀ {before : List Spaced} {gap : Bool} {cs : List Char},
      spaced gap cs = before ++ (spacedWord g (d :: w) ++ after) → d :: w <:+: cs
  | before, gap, [], h => by
    cases before with
    | nil => cases h
    | cons t ts => cases h
  | before, gap, c :: cs, h => by
    cases hc : isBlank c with
    | true =>
      rw [spaced_cons_of_blank hc] at h
      exact List.infix_cons (infix_of_spaced h)
    | false =>
      rw [spaced_cons_of_not_blank hc] at h
      cases before with
      | nil =>
        obtain ⟨hfirst, hrest⟩ := List.cons.inj h
        obtain rfl : c = d := congrArg Prod.snd hfirst
        exact (List.cons_prefix_cons.mpr ⟨rfl, prefix_of_spaced hrest⟩).isInfix
      | cons t ts => exact List.infix_cons (infix_of_spaced (List.cons.inj h).2)

/-- A word occurs in a text where its characters follow each other without a gap. -/
theorem infix_iff_spaced (gap : Bool) {w : List Char} (hne : w ≠ [])
    (hw : ∀ c ∈ w, isBlank c = false) :
    w <:+: cs ↔ ∃ g, spacedWord g w <:+: spaced gap cs := by
  constructor
  · rintro ⟨before, after, rfl⟩
    refine ⟨gapAfter gap before, spaced gap before,
      spaced (gapAfter gap (before ++ w)) after, ?_⟩
    rw [spaced_append, spaced_append, spaced_of_not_blank hw]
  · rintro ⟨g, before, after, h⟩
    cases w with
    | nil => exact absurd rfl hne
    | cons d w =>
      rw [List.append_assoc] at h
      exact infix_of_spaced h.symm

/-- Whether a word occurs in a text depends on the spacing alone. -/
theorem occursIn_eq_of_spaced {w : List Char} (hne : w ≠ []) (hw : ∀ c ∈ w, isBlank c = false)
    (h : spaced true cs = spaced true ds) : occursIn w cs = occursIn w ds := by
  rw [Bool.eq_iff_iff, occursIn_iff, occursIn_iff, infix_iff_spaced true hne hw,
    infix_iff_spaced true hne hw, h]

end SchemaAudit.Text
