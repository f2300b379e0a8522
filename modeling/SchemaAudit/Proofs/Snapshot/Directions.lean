import SchemaAudit.Proofs.Results
import SchemaAudit.Proofs.Text.Folding
import SchemaAudit.Snapshot.Index

/-!
# Directions in the texts of index columns

An index column is mostly given as one text, and the text can end with a word for the direction.
What such a text means can be said without the reader: if it is an expression, some blanks and a
direction word in any letter case, it means this expression and this direction, and otherwise it is
an expression as a whole. The reader departs from this in two ways. It looks for what stands before
the direction word on one line only, and it takes the long s for an s in the search for a direction
word but not in the word that it has found.

- `EndsInWord`, `Spells`, `Means`: what a text means.
- `splitDirection?_of_endsInWord`, `splitDirection?_eq_some`: what the search for a direction finds.
- `readDirection_of_spells`, `readDirection_of_spellsLong`: the direction of the word that it finds.
- `readsText`: every text is read as it is meant, but for these two kinds.
-/

namespace SchemaAudit.Snapshot

open Text

/-- A text is `e`, at least one blank and then `w`, where `e` has characters and does not end with a
blank. -/
structure EndsInWord (t e w : List Char) : Prop where
  split : ∃ gap, gap ≠ [] ∧ (∀ c ∈ gap, isBlank c = true) ∧ t = e ++ gap ++ w
  ne_nil : e ≠ []
  last : ∀ c ∈ e.getLast?, isBlank c = false

/-- The word for a direction, in small letters. -/
def directionWord : Direction → List Char
  | .ascending => ['a', 's', 'c']
  | .descending => ['d', 'e', 's', 'c']

/-- A word for a direction, each of its letters small or capital. -/
def Spells (w : List Char) (d : Direction) : Prop :=
  List.Forall₂ (fun c l => c = l ∨ c = l.toUpper) w (directionWord d)

/-- A character that stands for a small letter in the search for direction words. -/
def StandsFor (c l : Char) : Prop :=
  c = l ∨ c = l.toUpper ∨ c = 'ſ' ∧ l = 's'

/-- A word for a direction in which the letter s is a long one. -/
structure SpellsLong (w : List Char) (d : Direction) : Prop where
  letters : List.Forall₂ StandsFor w (directionWord d)
  long : 'ſ' ∈ w

/-- What the text of an index column means, once its outer blanks are taken away. -/
inductive Means (t : List Char) : String × Direction → Prop where
  /-- An expression and a direction. -/
  | directed {e w : List Char} {d : Direction} (h : EndsInWord t e w) (hw : Spells w d) :
    Means t (String.ofList e, d)
  /-- An expression alone. -/
  | plain (h : ∀ e w d, EndsInWord t e w → ¬ Spells w d) : Means t (String.ofList t, .ascending)

/-- A text ends in a direction word behind a line break in its expression. -/
def BreaksLine (t : List Char) : Prop :=
  ∃ e w d, EndsInWord t e w ∧ Spells w d ∧ '\n' ∈ e

/-- A text ends in a direction word with a long s, behind an expression on one line. -/
def EndsLong (t : List Char) : Prop :=
  ∃ e w d, EndsInWord t e w ∧ SpellsLong w d ∧ '\n' ∉ e

/-- What is read from the text of an index column. -/
structure ReadsText (s : String) : Prop where
  /-- Every text has one meaning. -/
  meaning : ∃! r, Means (strip s.toList) r
  /-- A text is read as it is meant, but for two kinds. -/
  asMeant : ∀ r, Means (strip s.toList) r → (readIndexColumn (.text s) = .ok r ↔
    ¬ BreaksLine (strip s.toList) ∧ ¬ EndsLong (strip s.toList))
  /-- Behind a line break a direction word is taken for a part of the expression. -/
  broken : BreaksLine (strip s.toList) →
    readIndexColumn (.text s) = .ok (stripString s, .ascending)
  /-- A direction word with a long s is refused. -/
  long : ∀ e w d, EndsInWord (strip s.toList) e w → SpellsLong w d → '\n' ∉ e →
    readIndexColumn (.text s) = .error (.snapshot (.unknownDirection (String.ofList w)))

/-! ### Direction words -/

/-- The letters of the direction words. -/
def directionLetters : List Char :=
  directionWord .ascending ++ directionWord .descending

theorem mem_directionLetters {l : Char} {d : Direction} (h : l ∈ directionWord d) :
    l ∈ directionLetters := by
  cases d with
  | ascending => exact List.mem_append_left _ h
  | descending => exact List.mem_append_right _ h

/-- A property of the letters can be tested for one after the other. -/
theorem forall_directionLetters {p : Char → Prop} [DecidablePred p]
    (h : directionLetters.all (fun l => decide (p l)) = true) : ∀ l ∈ directionLetters, p l :=
  fun l hl => of_decide_eq_true (List.all_eq_true.mp h l hl)

theorem plain_directionLetters : ∀ l ∈ directionLetters, l ∈ plainLetters :=
  forall_directionLetters (by decide +kernel)

/-- Where letter case does not matter, a letter is its small form, its capital form, and the long
form of an s. -/
theorem foldLetter_eq_iff {c l : Char} (hl : l ∈ directionLetters) :
    foldLetter c = l ↔ StandsFor c l := by
  have hascii : ∀ l ∈ directionLetters, ∀ n < 0x80,
      foldLetter (Char.ofNat n) = l ↔ StandsFor (Char.ofNat n) l := by
    unfold StandsFor
    exact forall_directionLetters (by decide +kernel)
  have hsmall : ∀ l ∈ directionLetters, l.toNat < 0x80 ∧ l.toUpper.toNat < 0x80 :=
    forall_directionLetters (by decide +kernel)
  by_cases hc : c.toNat < 0x80
  · have hiff := hascii l hl c.toNat hc
    rwa [Char.ofNat_toNat] at hiff
  · -- the long s is the only other character with one of these letters for its small form
    have hsame : c.toLower = c := by
      unfold Char.toLower
      refine dif_neg fun h => ?_
      have hle : c.toNat ≤ 'Z'.toNat := UInt32.le_iff_toNat_le.mp h.2
      exact hc (Nat.lt_of_le_of_lt hle (by decide))
    have hne : c ≠ l := by
      rintro rfl
      exact hc (hsmall c hl).1
    have hneUpper : c ≠ l.toUpper := by
      rintro rfl
      exact hc (hsmall l hl).2
    rw [foldLetter, StandsFor, hsame]
    by_cases hlong : c = 'ſ'
    · rw [if_pos hlong]
      constructor
      · exact fun h => .inr (.inr ⟨hlong, h.symm⟩)
      · rintro (h | h | ⟨-, h⟩)
        · exact absurd h hne
        · exact absurd h hneUpper
        · exact h.symm
    · rw [if_neg hlong]
      simp [hlong, hne, hneUpper]

theorem isDirectionWord_iff {w : List Char} :
    isDirectionWord w = true ↔ ∃ d, List.Forall₂ StandsFor w (directionWord d) := by
  have hword : ∀ d, w.map foldLetter = directionWord d ↔
      List.Forall₂ StandsFor w (directionWord d) := by
    intro d
    have hmap : w.map foldLetter = directionWord d ↔
        List.Forall₂ (fun c l => foldLetter c = l) w (directionWord d) := by
      rw [← List.forall₂_map_left_iff (R := (· = ·)), List.forall₂_eq_eq_eq]
    rw [hmap]
    constructor
    · intro h
      refine (pairs_with_mem h).imp ?_
      rintro c l ⟨hcl, hl⟩
      exact (foldLetter_eq_iff (mem_directionLetters hl)).mp hcl
    · intro h
      refine (pairs_with_mem h).imp ?_
      rintro c l ⟨hcl, hl⟩
      exact (foldLetter_eq_iff (mem_directionLetters hl)).mpr hcl
  have hunfold : isDirectionWord w = true ↔
      w.map foldLetter = directionWord .ascending ∨
        w.map foldLetter = directionWord .descending := by
    simp [isDirectionWord, directionWord]
  rw [hunfold, hword, hword]
  constructor
  · rintro (h | h)
    · exact ⟨.ascending, h⟩
    · exact ⟨.descending, h⟩
  · rintro ⟨d, h⟩
    cases d with
    | ascending => exact .inl h
    | descending => exact .inr h

/-- What the search takes for a direction word is one, or has a long s. -/
theorem standsFor_iff {w : List Char} {d : Direction} :
    List.Forall₂ StandsFor w (directionWord d) ↔ Spells w d ∨ SpellsLong w d := by
  constructor
  · intro h
    by_cases hlong : 'ſ' ∈ w
    · exact .inr ⟨h, hlong⟩
    · refine .inl ((pairs_with_mem h.flip).flip.imp ?_)
      rintro c l ⟨hcl, hc⟩
      rcases hcl with hcl | hcl | ⟨rfl, -⟩
      · exact .inl hcl
      · exact .inr hcl
      · exact absurd hc hlong
  · rintro (h | h)
    · exact h.imp fun _ _ hcl => hcl.imp_right .inl
    · exact h.letters

/-- Direction words have no blanks in them. -/
theorem not_isBlank_of_standsFor {w : List Char} {d : Direction}
    (h : List.Forall₂ StandsFor w (directionWord d)) : ∀ c ∈ w, isBlank c = false := by
  intro c hc
  obtain ⟨l, hl, hcl⟩ := exists_partner h c hc
  obtain ⟨-, ⟨hsmall, hcapital⟩, -⟩ :=
    plainLetters_spec l (plain_directionLetters l (mem_directionLetters hl))
  rcases hcl with rfl | rfl | ⟨rfl, -⟩
  · exact hsmall
  · exact hcapital
  · decide +kernel

theorem Spells.standsFor {w : List Char} {d : Direction} (h : Spells w d) :
    List.Forall₂ StandsFor w (directionWord d) :=
  standsFor_iff.mpr (.inl h)

/-! ### The direction of a word -/

/-- The word for a direction is the small form of its spellings alone. -/
theorem lower_eq_directionWord_iff {w : List Char} {d : Direction} :
    lower w = directionWord d ↔ Spells w d :=
  lower_eq_iff_spelled (fun _ hl => plain_directionLetters _ (mem_directionLetters hl)) w

theorem Spells.notMem_long {w : List Char} {d : Direction} (h : Spells w d) : 'ſ' ∉ w := by
  have hletters : ∀ l ∈ directionLetters, 'ſ' ≠ l ∧ 'ſ' ≠ l.toUpper :=
    forall_directionLetters (by decide +kernel)
  intro hmem
  obtain ⟨l, hl, hcl⟩ := exists_partner h 'ſ' hmem
  obtain ⟨hsmall, hcapital⟩ := hletters l (mem_directionLetters hl)
  exact hcl.elim hsmall hcapital

/-- A word without blanks is compared with the two direction words. -/
theorem readDirection_word {w : List Char} (hw : ∀ c ∈ w, isBlank c = false) :
    readDirection (String.ofList w) =
      if lower w = directionWord .ascending then .ok .ascending
      else if lower w = directionWord .descending then .ok .descending
      else .error (.snapshot (.unknownDirection (String.ofList w))) := by
  have hstripped : strip w = w := (Stripped.of_forall hw).strip_eq
  have hword : ∀ cs : List Char, (String.ofList (lower w) == String.ofList cs) =
      decide (lower w = cs) := by
    intro cs
    rw [Bool.eq_iff_iff, beq_iff_eq, String.ofList_inj, decide_eq_true_iff]
  have hasc : "asc" = String.ofList (directionWord .ascending) := rfl
  have hdesc : "desc" = String.ofList (directionWord .descending) := rfl
  rw [readDirection, stripString, lowerString, String.toList_ofList, String.toList_ofList,
    hstripped, hasc, hdesc, hword, hword]
  simp only [decide_eq_true_eq]

theorem readDirection_of_spells {w : List Char} {d : Direction} (h : Spells w d) :
    readDirection (String.ofList w) = .ok d := by
  rw [readDirection_word (not_isBlank_of_standsFor h.standsFor), lower_eq_directionWord_iff.mpr h]
  cases d with
  | ascending => rfl
  | descending => rfl

theorem readDirection_of_spellsLong {w : List Char} {d : Direction} (h : SpellsLong w d) :
    readDirection (String.ofList w) =
      .error (.snapshot (.unknownDirection (String.ofList w))) := by
  have hne : ∀ d, lower w ≠ directionWord d :=
    fun d heq => (lower_eq_directionWord_iff.mp heq).notMem_long h.long
  rw [readDirection_word (not_isBlank_of_standsFor h.letters), if_neg (hne _), if_neg (hne _)]

/-! ### The search for a direction word -/

/-- The last word of a text, and what stands before it, are found from the end of the text. -/
theorem EndsInWord.parts {t e w : List Char} (h : EndsInWord t e w)
    (hw : ∀ c ∈ w, isBlank c = false) :
    (t.reverse.takeWhile (!isBlank ·)).reverse = w ∧
      stripEnd (t.reverse.dropWhile (!isBlank ·)).reverse = e := by
  obtain ⟨⟨gap, hgap, hblank, rfl⟩, -, hlast⟩ := h
  obtain ⟨gs, b, rfl⟩ : ∃ gs b, gap = gs ++ [b] := (List.eq_nil_or_concat' gap).resolve_left hgap
  have hreversed : (e ++ (gs ++ [b]) ++ w).reverse = w.reverse ++ b :: (e ++ gs).reverse := by
    simp
  have hword : ∀ c ∈ w.reverse, (!isBlank c) = true := by
    intro c hc
    rw [hw c (List.mem_reverse.mp hc)]
    rfl
  have hb : ¬ (!isBlank b) = true := by
    simp [hblank b (by simp)]
  have hrest : (b :: (e ++ gs).reverse).reverse = e ++ (gs ++ [b]) := by
    simp
  rw [hreversed, List.takeWhile_append_of_pos hword,
    List.takeWhile_cons_of_neg (p := fun c => !isBlank c) hb,
    List.dropWhile_append_of_pos hword,
    List.dropWhile_cons_of_neg (p := fun c => !isBlank c) hb, List.append_nil,
    List.reverse_reverse, hrest]
  exact ⟨rfl, stripEnd_append_blanks hlast hblank⟩

/-- A text ends in one word without blanks at most. -/
theorem EndsInWord.unique {t e w e' w' : List Char} (h : EndsInWord t e w) (h' : EndsInWord t e' w')
    (hw : ∀ c ∈ w, isBlank c = false) (hw' : ∀ c ∈ w', isBlank c = false) : e = e' ∧ w = w' := by
  obtain ⟨hword, hexpression⟩ := h.parts hw
  obtain ⟨hword', hexpression'⟩ := h'.parts hw'
  exact ⟨hexpression.symm.trans hexpression', hword.symm.trans hword'⟩

theorem splitDirection?_of_endsInWord {t e w : List Char} (h : EndsInWord t e w)
    (hw : ∀ c ∈ w, isBlank c = false) :
    splitDirection? t =
      if isDirectionWord w = true ∧ '\n' ∉ e then some (e, w) else none := by
  obtain ⟨hword, hexpression⟩ := h.parts hw
  unfold splitDirection?
  dsimp only
  rw [hword, hexpression]
  congr 1
  simp [h.ne_nil]

/-- What the search finds stands at the end of the text. -/
theorem splitDirection?_eq_some {t e w : List Char} (h : splitDirection? t = some (e, w)) :
    EndsInWord t e w ∧ isDirectionWord w = true ∧ '\n' ∉ e := by
  unfold splitDirection? at h
  dsimp only at h
  split at h
  · next hfound =>
    obtain ⟨hexpression, hword⟩ := Prod.mk.inj (Option.some.inj h)
    rw [hexpression, hword] at hfound
    simp only [Bool.and_eq_true, Bool.not_eq_true', List.isEmpty_eq_false_iff,
      List.contains_eq_mem, decide_eq_false_iff_not] at hfound
    obtain ⟨⟨hdirection, hne⟩, hline⟩ := hfound
    refine ⟨?_, hdirection, hline⟩
    obtain ⟨gap, hrest, hblank⟩ := exists_stripEnd (t.reverse.dropWhile (!isBlank ·)).reverse
    have hlast : ∀ c ∈ e.getLast?, isBlank c = false := hexpression ▸ getLast?_stripEnd _
    rw [hexpression] at hrest
    have hsplit : t = e ++ gap ++ w := by
      rw [← hrest, ← hword, ← List.reverse_append, List.takeWhile_append_dropWhile,
        List.reverse_reverse]
    refine ⟨⟨gap, ?_, hblank, hsplit⟩, hne, hlast⟩
    rintro rfl
    -- the search for the word stops at a blank, so what is left does not end like the expression
    rw [List.append_nil] at hrest
    have hstop := List.head?_dropWhile_not (!isBlank ·) t.reverse
    rw [← List.getLast?_reverse, hrest] at hstop
    cases hend : e.getLast? with
    | none => exact hne (List.getLast?_eq_none_iff.mp hend)
    | some c =>
      rw [hend] at hstop
      have hc : isBlank c = false := hlast c hend
      simp [hc] at hstop
  · cases h

/-! ### Readings -/

/-- An index column whose expression is not blank fails only by the word for its direction. -/
theorem readIndexColumn_of_texts {d : Doc} {e word : String}
    (htexts : indexColumnTexts d = .ok (e, word)) (hblank : isBlankString e = false) :
    readIndexColumn d = (readDirection word).map fun r => (stripString e, r) := by
  have hrequire : require (!isBlankString e) (.missingExpression d) = .ok () := by
    rw [hblank]
    rfl
  unfold readIndexColumn
  rw [bind_eq_of_ok htexts]
  dsimp only
  rw [bind_eq_of_ok hrequire]
  cases readDirection word with
  | error f => rfl
  | ok r => rfl

/-- An expression without outer blanks goes with the direction of its word. -/
theorem readIndexColumn_of_parts {s : String} {e w : List Char}
    (hparts : columnTextParts s = (String.ofList e, String.ofList w)) (hne : e ≠ [])
    (he : Stripped e) :
    readIndexColumn (.text s) =
      (readDirection (String.ofList w)).map fun d => (String.ofList e, d) := by
  have htexts : indexColumnTexts (.text s) = .ok (String.ofList e, String.ofList w) :=
    congrArg Except.ok hparts
  have hblank : isBlankString (String.ofList e) = false := by
    rw [isBlankString, String.toList_ofList]
    cases e with
    | nil => exact absurd rfl hne
    | cons c e =>
      have hc : isBlank c = false := he.first c rfl
      rw [List.all_cons, hc, Bool.false_and]
  have hstripped : stripString (String.ofList e) = String.ofList e := by
    rw [stripString, String.toList_ofList, he.strip_eq]
  rw [readIndexColumn_of_texts htexts hblank, hstripped]

section Reading

variable {s : String}

/-- Where no direction word is found, the text is an expression. -/
theorem readIndexColumn_of_none (hs : isBlankString s = false)
    (h : splitDirection? (strip s.toList) = none) :
    readIndexColumn (.text s) = .ok (stripString s, .ascending) := by
  have hne : strip s.toList ≠ [] := by
    intro hnil
    obtain ⟨before, after, hsplit, hbefore, hafter⟩ := exists_strip s.toList
    rw [hnil, List.append_nil] at hsplit
    have hall : isBlankString s = true := by
      rw [isBlankString, hsplit, List.all_append, List.all_eq_true.mpr hbefore,
        List.all_eq_true.mpr hafter]
      rfl
    rw [hs] at hall
    cases hall
  have hparts : columnTextParts s =
      (String.ofList (strip s.toList), String.ofList (directionWord .ascending)) := by
    unfold columnTextParts
    dsimp only
    rw [h]
    rfl
  have hword : Spells (directionWord .ascending) .ascending :=
    List.forall₂_same.mpr fun _ _ => .inl rfl
  rw [readIndexColumn_of_parts hparts hne (stripped_strip _), readDirection_of_spells hword]
  rfl

/-- A direction word that is found is read, and what stands before it is the expression. -/
theorem readIndexColumn_of_endsInWord {e w : List Char} {d : Direction}
    (h : EndsInWord (strip s.toList) e w) (hw : List.Forall₂ StandsFor w (directionWord d))
    (hline : '\n' ∉ e) :
    readIndexColumn (.text s) =
      (readDirection (String.ofList w)).map fun d => (String.ofList e, d) := by
  have hfound : splitDirection? (strip s.toList) = some (e, w) := by
    rw [splitDirection?_of_endsInWord h (not_isBlank_of_standsFor hw)]
    exact if_pos ⟨isDirectionWord_iff.mpr ⟨d, hw⟩, hline⟩
  have hparts : columnTextParts s = (String.ofList e, String.ofList w) := by
    unfold columnTextParts
    dsimp only
    rw [hfound]
  refine readIndexColumn_of_parts hparts h.ne_nil ⟨fun c hc => ?_, h.last⟩
  -- the expression starts as the stripped text does
  obtain ⟨gap, -, -, hsplit⟩ := h.split
  have hfirst : (strip s.toList).head? = some c := by
    have hhead : e.head? = some c := hc
    rw [hsplit, List.head?_append, List.head?_append, hhead]
    rfl
  exact (stripped_strip s.toList).first c hfirst

/-- Behind a line break, no direction word is found. -/
theorem splitDirection?_of_breaksLine {t : List Char} (h : BreaksLine t) :
    splitDirection? t = none := by
  obtain ⟨e, w, d, hends, hw, hline⟩ := h
  rw [splitDirection?_of_endsInWord hends (not_isBlank_of_standsFor hw.standsFor)]
  exact if_neg fun hboth => hboth.2 hline

/-- Where no direction word and none with a long s stands, none is found. -/
theorem splitDirection?_of_plain {t : List Char} (h : ∀ e w d, EndsInWord t e w → ¬ Spells w d)
    (hlong : ¬ EndsLong t) : splitDirection? t = none := by
  cases hfound : splitDirection? t with
  | none => rfl
  | some found =>
    obtain ⟨e, w⟩ := found
    obtain ⟨hends, hword, hline⟩ := splitDirection?_eq_some hfound
    obtain ⟨d, hd⟩ := isDirectionWord_iff.mp hword
    rcases standsFor_iff.mp hd with hspells | hspellsLong
    · exact absurd hspells (h e w d hends)
    · exact absurd ⟨e, w, d, hends, hspellsLong, hline⟩ hlong

theorem Spells.unique {w : List Char} {d d' : Direction} (h : Spells w d) (h' : Spells w d') :
    d = d' := by
  have hsame : directionWord d = directionWord d' :=
    (lower_eq_directionWord_iff.mpr h).symm.trans (lower_eq_directionWord_iff.mpr h')
  cases d with
  | ascending =>
    cases d' with
    | ascending => rfl
    | descending => exact absurd hsame (by decide)
  | descending =>
    cases d' with
    | ascending => exact absurd hsame (by decide)
    | descending => rfl

/-- Every text has one meaning. -/
theorem existsUnique_means (t : List Char) : ∃! r, Means t r := by
  by_cases h : ∃ e w d, EndsInWord t e w ∧ Spells w d
  · obtain ⟨e, w, d, hends, hw⟩ := h
    refine ⟨(String.ofList e, d), .directed hends hw, fun r hr => ?_⟩
    cases hr with
    | @directed e' w' d' hends' hw' =>
      obtain ⟨rfl, rfl⟩ := hends.unique hends' (not_isBlank_of_standsFor hw.standsFor)
        (not_isBlank_of_standsFor hw'.standsFor)
      rw [hw.unique hw']
    | plain hplain => exact absurd hw (hplain e w d hends)
  · have hplain : ∀ e w d, EndsInWord t e w → ¬ Spells w d :=
      fun e w d hends hw => h ⟨e, w, d, hends, hw⟩
    refine ⟨(String.ofList t, .ascending), .plain hplain, fun r hr => ?_⟩
    cases hr with
    | directed hends hw => exact absurd hw (hplain _ _ _ hends)
    | plain _ => rfl

/-- A text with expression and direction is read as it is meant if the expression is on one line. -/
theorem asMeant_directed (hs : isBlankString s = false) {e w : List Char} {d : Direction}
    (h : EndsInWord (strip s.toList) e w) (hw : Spells w d) :
    readIndexColumn (.text s) = .ok (String.ofList e, d) ↔
      ¬ BreaksLine (strip s.toList) ∧ ¬ EndsLong (strip s.toList) := by
  have hblank := not_isBlank_of_standsFor hw.standsFor
  by_cases hline : '\n' ∈ e
  · have hbreaks : BreaksLine (strip s.toList) := ⟨e, w, d, h, hw, hline⟩
    rw [readIndexColumn_of_none hs (splitDirection?_of_breaksLine hbreaks)]
    constructor
    · intro heq
      -- the whole text is longer than its expression
      have hwhole : strip s.toList = e :=
        String.ofList_inj.mp (congrArg Prod.fst (Except.ok.inj heq))
      obtain ⟨gap, hgap, -, hsplit⟩ := h.split
      rw [hwhole, List.append_assoc] at hsplit
      have hnil : gap ++ w = [] := List.self_eq_append_right.mp hsplit
      exact absurd (List.append_eq_nil_iff.mp hnil).1 hgap
    · exact fun hnot => absurd hbreaks hnot.1
  · have hbreaks : ¬ BreaksLine (strip s.toList) := by
      rintro ⟨e', w', d', h', hw', hline'⟩
      obtain ⟨rfl, -⟩ := h.unique h' hblank (not_isBlank_of_standsFor hw'.standsFor)
      exact hline hline'
    have hlong : ¬ EndsLong (strip s.toList) := by
      rintro ⟨e', w', d', h', hw', -⟩
      obtain ⟨-, rfl⟩ := h.unique h' hblank (not_isBlank_of_standsFor hw'.letters)
      exact hw.notMem_long hw'.long
    rw [readIndexColumn_of_endsInWord h hw.standsFor hline, readDirection_of_spells hw]
    exact ⟨fun _ => ⟨hbreaks, hlong⟩, fun _ => rfl⟩

/-- A direction word with a long s is found, and then it is not one. -/
theorem readIndexColumn_of_spellsLong {e w : List Char} {d : Direction}
    (h : EndsInWord (strip s.toList) e w) (hw : SpellsLong w d) (hline : '\n' ∉ e) :
    readIndexColumn (.text s) = .error (.snapshot (.unknownDirection (String.ofList w))) := by
  rw [readIndexColumn_of_endsInWord h hw.letters hline, readDirection_of_spellsLong hw]
  rfl

/-- A text with an expression alone is read as it is meant if it does not end with a long s in what
would be a direction word. -/
theorem asMeant_plain (hs : isBlankString s = false)
    (h : ∀ e w d, EndsInWord (strip s.toList) e w → ¬ Spells w d) :
    readIndexColumn (.text s) = .ok (stripString s, .ascending) ↔
      ¬ BreaksLine (strip s.toList) ∧ ¬ EndsLong (strip s.toList) := by
  have hbreaks : ¬ BreaksLine (strip s.toList) := by
    rintro ⟨e, w, d, hends, hw, -⟩
    exact h e w d hends hw
  by_cases hlong : EndsLong (strip s.toList)
  · constructor
    · obtain ⟨e, w, d, hends, hw, hline⟩ := hlong
      rw [readIndexColumn_of_spellsLong hends hw hline]
      exact nofun
    · exact fun hnot => absurd hlong hnot.2
  · rw [readIndexColumn_of_none hs (splitDirection?_of_plain h hlong)]
    exact ⟨fun _ => ⟨hbreaks, hlong⟩, fun _ => rfl⟩

end Reading

/-- **Texts of index columns.** Every text that is not blank is read as it is meant, unless its
expression goes over several lines and a direction follows, or it ends in a direction word with a
long s. The first kind is taken for an expression as a whole, and the second one is refused. -/
theorem readsText {s : String} (hs : isBlankString s = false) : ReadsText s where
  meaning := existsUnique_means _
  asMeant r hr := by
    cases hr with
    | directed h hw => exact asMeant_directed hs h hw
    | plain h => exact asMeant_plain hs h
  broken h := readIndexColumn_of_none hs (splitDirection?_of_breaksLine h)
  long _ _ _ h hw hline := readIndexColumn_of_spellsLong h hw hline

/-- An expression that itself ends in a direction word. -/
theorem readsText_twoDirections :
    isBlankString " title asc  Desc\n" = false ∧ ReadsText " title asc  Desc\n" ∧
      readIndexColumn (.text " title asc  Desc\n") = .ok ("title asc", .descending) := by
  have hs : isBlankString " title asc  Desc\n" = false := by decide +kernel
  exact ⟨hs, readsText hs, by decide +kernel⟩

/-- The direction of an expression over two lines is lost, and an expression that ends in a word
with a long s is refused. -/
theorem directions_misread :
    Means (strip "concat(title,\n author) desc".toList)
        ("concat(title,\n author)", .descending) ∧
      readIndexColumn (.text "concat(title,\n author) desc") =
        .ok ("concat(title,\n author) desc", .ascending) ∧
      Means (strip "title deſc".toList) ("title deſc", .ascending) ∧
      readIndexColumn (.text "title deſc") =
        .error (.snapshot (.unknownDirection "deſc")) := by
  have htwoLines : EndsInWord (strip "concat(title,\n author) desc".toList)
      "concat(title,\n author)".toList "desc".toList := by
    refine ⟨⟨[' '], by decide, fun c hc => ?_, by decide +kernel⟩, by decide, ?_⟩
    · rw [List.mem_singleton.mp hc]
      decide +kernel
    · have hend : stripEnd "concat(title,\n author)".toList = "concat(title,\n author)".toList := by
        decide +kernel
      rw [← hend]
      exact getLast?_stripEnd _
  have hdesc : Spells "desc".toList .descending := by
    unfold Spells
    decide
  have hlong : EndsInWord (strip "title deſc".toList) "title".toList "deſc".toList :=
    (splitDirection?_eq_some (by decide +kernel)).1
  have hblank : ("deſc".toList.all fun c => !isBlank c) = true := by
    decide +kernel
  refine ⟨.directed htwoLines hdesc, by decide +kernel, .plain ?_, by decide +kernel⟩
  intro e w d hends hw
  obtain ⟨-, rfl⟩ := hlong.unique hends (fun c hc => by simpa using List.all_eq_true.mp hblank c hc)
    (not_isBlank_of_standsFor hw.standsFor)
  exact hw.notMem_long (by decide)

end SchemaAudit.Snapshot
