import Mathlib.Data.List.Forall2
import SchemaAudit.Proofs.Text.Spacing
import SchemaAudit.Text.Case

/-!
# Letter case and spacing

Only one small letter depends on its neighbours, the final sigma. With this letter taken for the
common sigma, the small forms of a text are those of its characters one by one.

- `fold`: these small forms; `map_unfinal_lower`: how they come from the text in small letters.
- `foldChar_of_isBlank`, `mem_foldChar_iff`: a blank has itself for its small form, and no other
  character has a parenthesis in its small form.
- `lower_eq_iff_spelled`: which texts are a given word in small letters.
- `occursIn_lower_eq`: a word without a sigma occurs in the one where it occurs in the other.
- `spaced_fold`: two texts that are spaced alike in small letters are so in the small forms.
-/

namespace SchemaAudit.Text

/-- The small sigma for its final form. -/
def unfinal (c : Char) : Char :=
  if c = 'ς' then 'σ' else c

/-- The small form of a character, whatever its neighbours are. -/
def foldChar (c : Char) : List Char :=
  (lowerChar [] c []).map unfinal

/-- The small forms of a text, character by character. -/
def fold (cs : List Char) : List Char :=
  cs.flatMap foldChar

theorem fold_append (cs ds : List Char) : fold (cs ++ ds) = fold cs ++ fold ds :=
  List.flatMap_append

theorem map_unfinal_lowerSigma (before after : List Char) :
    unfinal (lowerSigma before after) = 'σ' := by
  unfold lowerSigma
  dsimp only
  split
  · rfl
  · rfl

/-- The neighbours of a character matter for the final sigma alone. -/
theorem map_unfinal_lowerChar (before : List Char) (c : Char) (after : List Char) :
    (lowerChar before c after).map unfinal = foldChar c := by
  unfold foldChar lowerChar
  split
  · rfl
  · split
    · rw [List.map_singleton, List.map_singleton, map_unfinal_lowerSigma, map_unfinal_lowerSigma]
    · rfl

theorem map_unfinal_lowerAfter (before cs : List Char) :
    (lowerAfter before cs).map unfinal = fold cs := by
  induction cs generalizing before with
  | nil => rfl
  | cons c cs ih =>
    rw [lowerAfter, List.map_append, map_unfinal_lowerChar, ih]
    rfl

theorem map_unfinal_lower (cs : List Char) : (lower cs).map unfinal = fold cs :=
  map_unfinal_lowerAfter [] cs

/-! ### Small forms of single characters -/

/-- The code points of all blanks. -/
def blankCodes : List Nat :=
  blankRanges.flatMap fun r => List.range' r.1 (r.2 + 1 - r.1)

theorem toNat_mem_blankCodes {c : Char} (h : isBlank c = true) : c.toNat ∈ blankCodes := by
  obtain ⟨r, hr, hholds⟩ := List.any_eq_true.mp h
  rw [CodeRange.holds, Bool.and_eq_true, decide_eq_true_iff, decide_eq_true_iff] at hholds
  refine List.mem_flatMap.mpr ⟨r, hr, List.mem_range'_1.mpr ?_⟩
  omega

/-- A blank is its own small form. -/
theorem foldChar_of_isBlank {c : Char} (h : isBlank c = true) : foldChar c = [c] := by
  have hcodes : ∀ n ∈ blankCodes, foldChar (Char.ofNat n) = [Char.ofNat n] := by
    decide +kernel
  have hc := hcodes c.toNat (toNat_mem_blankCodes h)
  rwa [Char.ofNat_toNat] at hc

theorem fold_of_blanks {cs : List Char} (h : ∀ c ∈ cs, isBlank c = true) : fold cs = cs := by
  induction cs with
  | nil => rfl
  | cons c cs ih =>
    obtain ⟨hc, hcs⟩ := List.forall_mem_cons.mp h
    rw [fold, List.flatMap_cons, foldChar_of_isBlank hc, List.singleton_append]
    exact congrArg _ (ih hcs)

theorem toNat_ofNat_eq_or (n : Nat) : (Char.ofNat n).toNat = n ∨ (Char.ofNat n).toNat = 0 := by
  by_cases h : n.isValidChar
  · have hchar : Char.ofNat n = Char.ofNatAux n h := dif_pos h
    rw [hchar]
    exact .inl rfl
  · have hchar : Char.ofNat n = ⟨0, .inl (by decide)⟩ := dif_neg h
    rw [hchar]
    exact .inr rfl

/-- A character outside of all runs is its own counterpart, and one in a run is shifted. -/
theorem shiftCase_spec (groups : List (List CaseRun)) (c : Char) :
    shiftCase groups c = c ∨ ∃ g ∈ groups, ∃ r ∈ g, r.1 ≤ c.toNat ∧ c.toNat ≤ r.2.1 ∧
      shiftCase groups c = Char.ofNat (Int.toNat (c.toNat + r.2.2.2)) := by
  unfold shiftCase
  split
  · next n hn =>
    obtain ⟨g, hg, hn⟩ := List.exists_of_findSome?_eq_some hn
    obtain ⟨r, hr, hn⟩ := List.exists_of_findSome?_eq_some hn
    unfold CaseRun.image? at hn
    split at hn
    · next hmem =>
      obtain rfl := Option.some.inj hn
      exact .inr ⟨g, hg, r, hr, hmem.1, hmem.2.1, rfl⟩
    · cases hn
  · exact .inl rfl

/-- The small form of a character outside of ASCII is outside of the first code points as well. -/
theorem toNat_shiftCase {c : Char} (hc : 0x80 ≤ c.toNat) :
    (shiftCase lowerRunGroups c).toNat = 0 ∨ 0x40 < (shiftCase lowerRunGroups c).toNat := by
  have hruns : ∀ g ∈ lowerRunGroups, ∀ r ∈ g, 0x40 < (r.1 : Int) + r.2.2.2 := by
    decide +kernel
  rcases shiftCase_spec lowerRunGroups c with heq | ⟨g, hg, r, hr, hfirst, -, heq⟩
  · rw [heq]
    omega
  · have hbound := hruns g hg r hr
    have hofNat := toNat_ofNat_eq_or (Int.toNat (c.toNat + r.2.2.2))
    rw [heq]
    omega

/-- What stands in the small form of a character outside of ASCII. -/
theorem mem_foldChar_of_le {c x : Char} (hc : 0x80 ≤ c.toNat) (hx : x ∈ foldChar c) :
    x = 'σ' ∨ x = 'i' ∨ x = '\u0307' ∨ x = shiftCase lowerRunGroups c := by
  unfold foldChar lowerChar at hx
  rw [if_neg (Nat.not_lt.mpr hc)] at hx
  split at hx
  · rw [List.map_singleton, map_unfinal_lowerSigma, List.mem_singleton] at hx
    exact .inl hx
  · split at hx
    · have hdotted : x = 'i' ∨ x = '\u0307' := by
        simpa [unfinal] using hx
      exact .inr (hdotted.imp_right .inl)
    · rw [List.map_singleton, List.mem_singleton, unfinal] at hx
      split at hx
      · exact .inl hx
      · exact .inr (.inr (.inr hx))

/-- The first code points do not belong to these characters. -/
theorem toNat_of_mem_foldChar {c x : Char} (hc : 0x80 ≤ c.toNat) (hx : x ∈ foldChar c) :
    x.toNat = 0 ∨ 0x40 < x.toNat := by
  rcases mem_foldChar_of_le hc hx with rfl | rfl | rfl | rfl
  · exact .inr (by decide)
  · exact .inr (by decide)
  · exact .inr (by decide)
  · exact toNat_shiftCase hc

/-- A parenthesis. -/
def IsParenthesis (p : Char) : Prop :=
  p = '(' ∨ p = ')'

instance (p : Char) : Decidable (IsParenthesis p) :=
  inferInstanceAs (Decidable (p = '(' ∨ p = ')'))

/-- Parentheses are their own small forms, and no other character has one in its small form. -/
theorem mem_foldChar_iff {p c : Char} (hp : IsParenthesis p) : p ∈ foldChar c ↔ c = p := by
  have hascii : ∀ n < 0x80, p ∈ foldChar (Char.ofNat n) ↔ Char.ofNat n = p := by
    rcases hp with rfl | rfl
    · decide +kernel
    · decide +kernel
  obtain ⟨hpos, hle⟩ : p.toNat ≠ 0 ∧ p.toNat ≤ 0x40 := by
    rcases hp with rfl | rfl
    · decide
    · decide
  by_cases hc : c.toNat < 0x80
  · have hiff := hascii c.toNat hc
    rwa [Char.ofNat_toNat] at hiff
  · constructor
    · intro hmem
      have hfar := toNat_of_mem_foldChar (Nat.le_of_not_lt hc) hmem
      omega
    · rintro rfl
      omega

theorem foldChar_of_isParenthesis {p : Char} (hp : IsParenthesis p) : foldChar p = [p] := by
  rcases hp with rfl | rfl
  · decide +kernel
  · decide +kernel

theorem mem_fold_iff {p : Char} (hp : IsParenthesis p) (cs : List Char) : p ∈ fold cs ↔ p ∈ cs := by
  rw [fold, List.mem_flatMap]
  simp only [mem_foldChar_iff hp, exists_eq_right]

/-! ### Words of plain letters -/

/-- The small letters of which no character outside of ASCII has one in its small form. The letter i
stands in that of the dotted capital I, and k is that of the Kelvin sign. -/
def plainLetters : List Char :=
  ['a', 'b', 'c', 'd', 'e', 'f', 'g', 'h', 'j', 'l', 'm', 'n', 'o', 'p', 'q', 'r', 's', 't', 'u',
    'v', 'w', 'x', 'y', 'z']

/-- The text is the word, with any of its letters in capitals. -/
def Spelled (cs word : List Char) : Prop :=
  List.Forall₂ (fun c l => c = l ∨ c = l.toUpper) cs word

theorem plainLetters_spec : ∀ l ∈ plainLetters,
    (0x60 < l.toNat ∧ l.toNat < 0x7b ∧ l.toNat ≠ 'k'.toNat) ∧
      (isBlank l = false ∧ isBlank l.toUpper = false) ∧
      foldChar l = [l] ∧ foldChar l.toUpper = [l] :=
  -- tested for the letters of the list: there are too many characters to test them all
  List.forall_iff_forall_mem.mp (by decide +kernel)

/-- No run of characters outside of ASCII leads to a plain letter. -/
theorem shiftCase_notMem_plainLetters {c : Char} (hc : 0x80 ≤ c.toNat) :
    shiftCase lowerRunGroups c ∉ plainLetters := by
  have hruns : ∀ g ∈ lowerRunGroups, ∀ r ∈ g, r.2.1 < 0x80 ∨ 0x7b ≤ (r.1 : Int) + r.2.2.2 ∨
      (r.1 : Int) + r.2.2.2 = 'k'.toNat ∧ (r.2.1 : Int) + r.2.2.2 = 'k'.toNat := by
    decide +kernel
  intro hmem
  obtain ⟨hletter, -⟩ := plainLetters_spec _ hmem
  rcases shiftCase_spec lowerRunGroups c with heq | ⟨g, hg, r, hr, hfirst, hlast, heq⟩
  · rw [heq] at hletter
    omega
  · have hrun := hruns g hg r hr
    have hofNat := toNat_ofNat_eq_or (Int.toNat (c.toNat + r.2.2.2))
    rw [heq] at hletter
    omega

theorem foldChar_of_plain {c l : Char} (hl : l ∈ plainLetters) (h : c = l ∨ c = l.toUpper) :
    foldChar c = [l] := by
  obtain ⟨-, -, hsmall, hcapital⟩ := plainLetters_spec l hl
  rcases h with rfl | rfl
  · exact hsmall
  · exact hcapital

theorem not_isBlank_of_spelled {cs word : List Char} (hword : ∀ l ∈ word, l ∈ plainLetters)
    (h : Spelled cs word) : ∀ c ∈ cs, isBlank c = false := by
  induction h with
  | nil => exact nofun
  | cons hcl _ ih =>
    obtain ⟨hl, hrest⟩ := List.forall_mem_cons.mp hword
    obtain ⟨-, ⟨hsmall, hcapital⟩, -⟩ := plainLetters_spec _ hl
    refine List.forall_mem_cons.mpr ⟨?_, ih hrest⟩
    rcases hcl with rfl | rfl
    · exact hsmall
    · exact hcapital

/-- A plain letter stands in its own small form and in that of its capital. -/
theorem mem_foldChar_plain_iff {c l : Char} (hl : l ∈ plainLetters) :
    l ∈ foldChar c ↔ c = l ∨ c = l.toUpper := by
  have hascii : ∀ n < 0x80, (foldChar (Char.ofNat n)).Forall fun l =>
      l ∈ plainLetters → Char.ofNat n = l ∨ Char.ofNat n = l.toUpper := by
    decide +kernel
  have hothers : 'σ' ∉ plainLetters ∧ 'i' ∉ plainLetters ∧ '\u0307' ∉ plainLetters := by
    decide +kernel
  obtain ⟨hsigma, hi, hdot⟩ := hothers
  constructor
  · intro hmem
    by_cases hc : c.toNat < 0x80
    · have hchar := List.forall_iff_forall_mem.mp (hascii c.toNat hc) l
      rw [Char.ofNat_toNat] at hchar
      exact hchar hmem hl
    · have hle : 0x80 ≤ c.toNat := Nat.le_of_not_lt hc
      rcases mem_foldChar_of_le hle hmem with rfl | rfl | rfl | rfl
      · exact absurd hl hsigma
      · exact absurd hl hi
      · exact absurd hl hdot
      · exact absurd hl (shiftCase_notMem_plainLetters hle)
  · intro h
    rw [foldChar_of_plain hl h]
    exact List.mem_singleton_self l

theorem foldChar_ne_nil (c : Char) : foldChar c ≠ [] := by
  unfold foldChar lowerChar
  split
  · exact List.cons_ne_nil _ _
  · split
    · exact List.cons_ne_nil _ _
    · split
      · exact List.cons_ne_nil _ _
      · exact List.cons_ne_nil _ _

theorem fold_eq_iff_spelled {word : List Char} (hword : ∀ l ∈ word, l ∈ plainLetters)
    (cs : List Char) : fold cs = word ↔ Spelled cs word := by
  induction cs generalizing word with
  | nil =>
    rw [Spelled, List.forall₂_nil_left_iff]
    exact eq_comm
  | cons c cs ih =>
    rw [Spelled, List.forall₂_cons_left_iff, fold, List.flatMap_cons]
    constructor
    · rintro rfl
      obtain ⟨l, rest, hc⟩ := List.exists_cons_of_ne_nil (foldChar_ne_nil c)
      have hmem : l ∈ foldChar c := hc ▸ List.mem_cons_self
      have hl : l ∈ plainLetters := hword l (List.mem_append_left _ hmem)
      have hspelled := (mem_foldChar_plain_iff hl).mp hmem
      rw [foldChar_of_plain hl hspelled] at hword ⊢
      exact ⟨l, fold cs, hspelled, (ih fun m hm => hword m (List.mem_cons_of_mem l hm)).mp rfl, rfl⟩
    · rintro ⟨l, word', hspelled, hrest, rfl⟩
      obtain ⟨hl, hword'⟩ := List.forall_mem_cons.mp hword
      rw [foldChar_of_plain hl hspelled, List.singleton_append]
      exact congrArg (l :: ·) ((ih hword').mpr hrest)

/-! ### Occurrences and spacing -/

theorem map_unfinal_eq_self {w : List Char} (hfinal : 'ς' ∉ w) : w.map unfinal = w := by
  refine (List.map_congr_left fun c hc => ?_).trans (List.map_id w)
  have hne : c ≠ 'ς' := fun h => hfinal (h ▸ hc)
  rw [unfinal, if_neg hne, id]

/-- In small letters, a text is a word of plain letters exactly if it is the word in some letter
case. -/
theorem lower_eq_iff_spelled {word : List Char} (hword : ∀ l ∈ word, l ∈ plainLetters)
    (cs : List Char) : lower cs = word ↔ Spelled cs word := by
  have hsigmas : 'ς' ∉ plainLetters ∧ 'σ' ∉ plainLetters := by
    decide +kernel
  rw [← fold_eq_iff_spelled hword, ← map_unfinal_lower]
  constructor
  · rintro rfl
    exact map_unfinal_eq_self fun hmem => hsigmas.1 (hword _ hmem)
  · rintro rfl
    have hfinal : 'ς' ∉ lower cs := fun hmem =>
      hsigmas.2 (hword _ (List.mem_map_of_mem (f := unfinal) hmem))
    exact (map_unfinal_eq_self hfinal).symm

/-- A text without a sigma is found where final sigmas are taken for common ones, and nowhere else.
-/
theorem infix_map_unfinal_iff {w cs : List Char} (hfinal : 'ς' ∉ w) (hsigma : 'σ' ∉ w) :
    w <:+: cs.map unfinal ↔ w <:+: cs := by
  constructor
  · rintro ⟨before, after, h⟩
    obtain ⟨start, rest, rfl, hstart, -⟩ := List.map_eq_append_iff.mp h.symm
    obtain ⟨first, part, rfl, -, hpart⟩ := List.map_eq_append_iff.mp hstart
    have hpartFinal : 'ς' ∉ part := fun hmem =>
      hsigma (hpart ▸ List.mem_map_of_mem (f := unfinal) hmem)
    rw [map_unfinal_eq_self hpartFinal] at hpart
    exact ⟨first, rest, by rw [hpart]⟩
  · rintro ⟨before, after, rfl⟩
    refine ⟨before.map unfinal, after.map unfinal, ?_⟩
    rw [List.map_append, List.map_append, map_unfinal_eq_self hfinal]

/-- A fragment without a sigma occurs in small letters where it occurs in the small forms. -/
theorem occursIn_lower_eq {w : List Char} (hfinal : 'ς' ∉ w) (hsigma : 'σ' ∉ w) (cs : List Char) :
    occursIn w (lower cs) = occursIn w (fold cs) := by
  rw [Bool.eq_iff_iff, occursIn_iff, occursIn_iff, ← map_unfinal_lower,
    infix_map_unfinal_iff hfinal hsigma]

theorem isBlank_unfinal (c : Char) : isBlank (unfinal c) = isBlank c := by
  unfold unfinal
  split
  · next h =>
    rw [h]
    decide
  · rfl

theorem spaced_map_unfinal (gap : Bool) (cs : List Char) :
    spaced gap (cs.map unfinal) = (spaced gap cs).map fun t => (t.1, unfinal t.2) := by
  induction cs generalizing gap with
  | nil => rfl
  | cons c cs ih =>
    have hblank := isBlank_unfinal c
    rw [List.map_cons]
    cases hc : isBlank c with
    | true => rw [spaced_cons_of_blank hc, spaced_cons_of_blank (hblank.trans hc), ih]
    | false =>
      rw [spaced_cons_of_not_blank hc, spaced_cons_of_not_blank (hblank.trans hc), ih,
        List.map_cons]

/-- Texts that are spaced alike in small letters are spaced alike in their small forms. -/
theorem spaced_fold {cs ds : List Char} (h : spaced true (lower cs) = spaced true (lower ds)) :
    spaced true (fold cs) = spaced true (fold ds) := by
  rw [← map_unfinal_lower, ← map_unfinal_lower, spaced_map_unfinal, spaced_map_unfinal, h]

end SchemaAudit.Text
