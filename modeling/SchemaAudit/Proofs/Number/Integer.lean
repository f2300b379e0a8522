import Mathlib.Data.List.DropRight
import Mathlib.Data.Rat.Floor
import SchemaAudit.Number.Binary64
import SchemaAudit.Number.Integer

/-!
# Integers in texts and in floating-point numbers

A text denotes an integer if it has a sign or none, digits of any scripts behind it, single
underscores between some of the digits, and blanks around all this. The reader takes the blanks away
and then the sign, and collects the digits one by one. It reads exactly these texts.

Of a finite floating-point number the integer next to it on the side of zero is read.

- `Digits`, `Signed`, `Denotes`: the grammar of integers in texts, with the number each denotes.
- `separatedDigits?_eq_some_iff`: the reader of digits accepts the grammar of digits.
- `trimInteger_surrounded`, `takeSign_append`: blanks and signs do not run into the digits.
- `readInteger?_eq_some_iff`: what the reader of integers answers.
- `value?`, `towardZero`, `truncate?_eq`: what is left of a number without its fractional part.
-/

namespace SchemaAudit.Number

/-! ### The grammar -/

/-- Digits with single underscores between some of them, and the values of the digits. -/
inductive Digits : List Char → List Nat → Prop where
  | last {c : Char} {n : Nat} (h : Text.digit? c = some n) : Digits [c] [n]
  | next {c : Char} {n : Nat} {cs : List Char} {ds : List Nat} (h : Text.digit? c = some n)
    (hrest : Digits cs ds) : Digits (c :: cs) (n :: ds)
  | underscore {c : Char} {n : Nat} {cs : List Char} {ds : List Nat} (h : Text.digit? c = some n)
    (hrest : Digits cs ds) : Digits (c :: '_' :: cs) (n :: ds)

/-- A sign, and the integer that it makes of a number. -/
inductive Signed (n : Nat) : List Char → Int → Prop where
  | none : Signed n [] n
  | plus : Signed n ['+'] n
  | minus : Signed n ['-'] (-n)

/-- A text denotes an integer: it is a sign and digits between blanks. -/
inductive Denotes : List Char → Int → Prop where
  | intro {before sign digits after : List Char} {ds : List Nat} {n : Int}
    (hbefore : ∀ c ∈ before, isIntegerMargin c = true) (hsign : Signed (Text.ofDigits 10 ds) sign n)
    (hdigits : Digits digits ds) (hlimit : ds.length ≤ digitLimit)
    (hafter : ∀ c ∈ after, isIntegerMargin c = true) :
    Denotes (before ++ (sign ++ digits) ++ after) n

/-! ### Digits -/

theorem digit?_underscore : Text.digit? '_' = none := by decide +kernel

theorem isBlank_of_isIntegerMargin {c : Char} (h : isIntegerMargin c = true) :
    Text.isBlank c = true := by
  unfold isIntegerMargin at h
  split at h
  · rw [Bool.or_eq_true, decide_eq_true_iff, Bool.and_eq_true, decide_eq_true_iff,
      decide_eq_true_iff] at h
    rcases h with rfl | ⟨hlow, hhigh⟩
    · decide
    · exact List.any_eq_true.mpr ⟨(0x09, 0x0d), by decide, by
        rw [Text.CodeRange.holds, Bool.and_eq_true, decide_eq_true_iff, decide_eq_true_iff]
        exact ⟨hlow, hhigh⟩⟩
  · exact h

/-- No blank is a digit: none of the groups of ten digits has a blank among them. -/
theorem digit?_of_isBlank {c : Char} (h : Text.isBlank c = true) : Text.digit? c = none := by
  have hgroups : ∀ z ∈ 0x30 :: Text.otherZeros, ∀ i < 10,
      Text.blankRanges.any (·.holds (z + i)) = false := by
    decide +kernel
  have hout : ∀ z ∈ 0x30 :: Text.otherZeros, ¬ (z ≤ c.toNat ∧ c.toNat ≤ z + 9) := by
    rintro z hz ⟨hlow, hhigh⟩
    have hi := hgroups z hz (c.toNat - z) (by omega)
    rw [Nat.add_sub_cancel' hlow] at hi
    exact Bool.noConfusion (hi.symm.trans h)
  have hascii : Text.asciiDigit? c = none := by
    refine if_neg ?_
    rintro ⟨hlow, hhigh⟩
    exact hout 0x30 List.mem_cons_self ⟨hlow, hhigh⟩
  have hother : Text.otherZeros.find? (fun z => z ≤ c.toNat ∧ c.toNat ≤ z + 9) = none := by
    rw [List.find?_eq_none]
    intro z hz
    rw [decide_eq_true_iff]
    exact hout z (List.mem_cons_of_mem _ hz)
  rw [Text.digit?, hascii]
  dsimp only
  rw [hother, Option.map_none]

theorem not_isIntegerMargin_of_digit? {c : Char} {n : Nat} (h : Text.digit? c = some n) :
    isIntegerMargin c = false := by
  refine Bool.eq_false_iff.mpr fun hmargin => ?_
  cases (digit?_of_isBlank (isBlank_of_isIntegerMargin hmargin)).symm.trans h

theorem Digits.exists_first {cs : List Char} {ds : List Nat} (h : Digits cs ds) :
    ∃ c n rest, Text.digit? c = some n ∧ cs = c :: rest := by
  cases h with
  | last h => exact ⟨_, _, _, h, rfl⟩
  | next h _ => exact ⟨_, _, _, h, rfl⟩
  | underscore h _ => exact ⟨_, _, _, h, rfl⟩

theorem Digits.exists_last {cs : List Char} {ds : List Nat} (h : Digits cs ds) :
    ∃ front c n, Text.digit? c = some n ∧ cs = front ++ [c] := by
  induction h with
  | last h => exact ⟨[], _, _, h, rfl⟩
  | @next d _ _ _ _ _ ih =>
    obtain ⟨front, c, n, hc, rfl⟩ := ih
    exact ⟨d :: front, c, n, hc, rfl⟩
  | @underscore d _ _ _ _ _ ih =>
    obtain ⟨front, c, n, hc, rfl⟩ := ih
    exact ⟨d :: '_' :: front, c, n, hc, rfl⟩

theorem separatedDigits?_of_digits {cs : List Char} {ds : List Nat} (h : Digits cs ds) :
    separatedDigits? cs = some ds := by
  induction h with
  | last h => rw [separatedDigits?, h, Option.map_some]
  | @next c n cs ds h hrest ih =>
    obtain ⟨d, m, rest, hd, rfl⟩ := hrest.exists_first
    have hne : d ≠ '_' := by
      rintro rfl
      cases digit?_underscore.symm.trans hd
    rw [separatedDigits?, h]
    dsimp only
    rw [if_neg hne, ih, Option.map_some]
  | underscore h _ ih =>
    rw [separatedDigits?, h]
    dsimp only
    rw [if_pos rfl, ih, Option.map_some]

theorem digits_of_separatedDigits? {cs : List Char} {ds : List Nat}
    (h : separatedDigits? cs = some ds) : Digits cs ds := by
  fun_induction separatedDigits? cs generalizing ds with
  | case1 => cases h
  | case2 c =>
    obtain ⟨n, hn, rfl⟩ := Option.map_eq_some_iff.mp h
    exact .last hn
  | case3 => cases h
  | case4 c cs n hn ih =>
    obtain ⟨rest, hrest, rfl⟩ := Option.map_eq_some_iff.mp h
    exact .underscore hn (ih hrest)
  | case5 c d cs n hn hne ih =>
    obtain ⟨rest, hrest, rfl⟩ := Option.map_eq_some_iff.mp h
    exact .next hn (ih hrest)

/-- What is read of digits is what they are. -/
theorem separatedDigits?_eq_some_iff {cs : List Char} {ds : List Nat} :
    separatedDigits? cs = some ds ↔ Digits cs ds :=
  ⟨digits_of_separatedDigits?, separatedDigits?_of_digits⟩

/-! ### Blanks and signs -/

theorem exists_trimInteger (cs : List Char) :
    ∃ before after, cs = before ++ trimInteger cs ++ after ∧
      (∀ c ∈ before, isIntegerMargin c = true) ∧ ∀ c ∈ after, isIntegerMargin c = true := by
  refine ⟨cs.takeWhile isIntegerMargin, (cs.dropWhile isIntegerMargin).rtakeWhile isIntegerMargin,
    ?_, fun c => List.mem_takeWhile_imp, fun c => List.mem_rtakeWhile_imp⟩
  have hrest : trimInteger cs = (cs.dropWhile isIntegerMargin).rdropWhile isIntegerMargin := rfl
  rw [hrest, List.append_assoc, List.rdropWhile_append_rtakeWhile, List.takeWhile_append_dropWhile]

/-- Blanks around a text are taken away, and nothing of a text that neither starts nor ends with
one. -/
theorem trimInteger_surrounded {before core after : List Char}
    (hbefore : ∀ c ∈ before, isIntegerMargin c = true)
    (hafter : ∀ c ∈ after, isIntegerMargin c = true)
    (hfirst : ∃ c rest, core = c :: rest ∧ isIntegerMargin c = false)
    (hlast : ∃ front c, core = front ++ [c] ∧ isIntegerMargin c = false) :
    trimInteger (before ++ core ++ after) = core := by
  have hstart : (before ++ core ++ after).dropWhile isIntegerMargin = core ++ after := by
    obtain ⟨c, rest, rfl, hc⟩ := hfirst
    rw [List.append_assoc, List.dropWhile_append_of_pos hbefore, List.cons_append,
      List.dropWhile_cons_of_neg (by simp [hc])]
  obtain ⟨front, c, rfl, hc⟩ := hlast
  have hreversed : (front ++ [c] ++ after).reverse = after.reverse ++ c :: front.reverse := by
    simp
  have hafter' : ∀ d ∈ after.reverse, isIntegerMargin d = true :=
    fun d hd => hafter d (List.mem_reverse.mp hd)
  rw [trimInteger, hstart, hreversed, List.dropWhile_append_of_pos hafter',
    List.dropWhile_cons_of_neg (by simp [hc])]
  simp

/-- A sign is taken away, and nothing of the digits behind it. -/
theorem takeSign_append {sign digits : List Char} {ds : List Nat} {m : Nat} {n : Int}
    (hsign : Signed m sign n) (hdigits : Digits digits ds) :
    ∃ negative, takeSign (sign ++ digits) = (negative, digits) ∧
      n = if negative then -(m : Int) else m := by
  cases hsign with
  | plus => exact ⟨false, rfl, rfl⟩
  | minus => exact ⟨true, rfl, rfl⟩
  | none =>
    obtain ⟨c, d, rest, hc, rfl⟩ := hdigits.exists_first
    refine ⟨false, ?_, rfl⟩
    rw [List.nil_append]
    unfold takeSign
    split
    · next hcons =>
      obtain ⟨rfl, -⟩ := List.cons.inj hcons
      cases (show Text.digit? '-' = none by decide +kernel).symm.trans hc
    · next hcons =>
      obtain ⟨rfl, -⟩ := List.cons.inj hcons
      cases (show Text.digit? '+' = none by decide +kernel).symm.trans hc
    · rfl

/-- What is taken away is a sign. -/
theorem exists_signed_takeSign (cs : List Char) (m : Nat) :
    ∃ sign, Signed m sign (if (takeSign cs).1 then -(m : Int) else m) ∧
      cs = sign ++ (takeSign cs).2 := by
  unfold takeSign
  split
  · exact ⟨_, .minus, rfl⟩
  · exact ⟨_, .plus, rfl⟩
  · exact ⟨_, .none, rfl⟩

/-! ### Integers -/

/-- Neither end of a sign with digits is a blank. -/
theorem Digits.ends_not_margin {sign digits : List Char} {ds : List Nat} {m : Nat} {n : Int}
    (hsign : Signed m sign n) (hdigits : Digits digits ds) :
    (∃ c rest, sign ++ digits = c :: rest ∧ isIntegerMargin c = false) ∧
      ∃ front c, sign ++ digits = front ++ [c] ∧ isIntegerMargin c = false := by
  constructor
  · cases hsign with
    | none =>
      obtain ⟨c, d, rest, hc, rfl⟩ := hdigits.exists_first
      exact ⟨c, rest, rfl, not_isIntegerMargin_of_digit? hc⟩
    | plus => exact ⟨'+', digits, rfl, by decide⟩
    | minus => exact ⟨'-', digits, rfl, by decide⟩
  · obtain ⟨front, c, d, hc, rfl⟩ := hdigits.exists_last
    exact ⟨sign ++ front, c, (List.append_assoc _ _ _).symm, not_isIntegerMargin_of_digit? hc⟩

theorem denotes_of_readInteger? {cs : List Char} {n : Int} (h : readInteger? cs = some n) :
    Denotes cs n := by
  obtain ⟨before, after, hcs, hbefore, hafter⟩ := exists_trimInteger cs
  unfold readInteger? at h
  dsimp only at h
  split at h
  · cases h
  · next ds hds =>
    split at h
    · cases h
    · next hlimit =>
      obtain ⟨sign, hsign, htrim⟩ := exists_signed_takeSign (trimInteger cs) (Text.ofDigits 10 ds)
      rw [Option.some.inj h] at hsign
      rw [hcs, htrim]
      exact .intro hbefore hsign (separatedDigits?_eq_some_iff.mp hds) (by omega) hafter

theorem readInteger?_of_denotes {cs : List Char} {n : Int} (h : Denotes cs n) :
    readInteger? cs = some n := by
  obtain @⟨before, sign, digits, after, ds, n, hbefore, hsign, hdigits, hlimit, hafter⟩ := h
  obtain ⟨hfirst, hlast⟩ := Digits.ends_not_margin hsign hdigits
  obtain ⟨negative, htake, rfl⟩ := takeSign_append hsign hdigits
  unfold readInteger?
  rw [trimInteger_surrounded hbefore hafter hfirst hlast, htake]
  dsimp only
  rw [separatedDigits?_eq_some_iff.mpr hdigits]
  dsimp only
  rw [if_neg (by omega)]

/-- **Integers in texts.** A text is read exactly if it denotes an integer, and then as this one. -/
theorem readInteger?_eq_some_iff {cs : List Char} {n : Int} :
    readInteger? cs = some n ↔ Denotes cs n :=
  ⟨denotes_of_readInteger?, readInteger?_of_denotes⟩

/-! ### Floating-point numbers -/

/-- The rational number that a finite floating-point number is. -/
def value? : Binary64 → Option ℚ
  | .finite negative mantissa exponent =>
    let q : ℚ := mantissa * 2 ^ exponent
    some (if negative then -q else q)
  | _ => none

/-- The integer next to a number on the side of zero. -/
def towardZero (q : ℚ) : ℤ :=
  if 0 ≤ q then ⌊q⌋ else ⌈q⌉

theorem towardZero_of_nonneg {q : ℚ} (h : 0 ≤ q) : towardZero q = ⌊q⌋ :=
  if_pos h

theorem towardZero_neg_of_nonneg {q : ℚ} (h : 0 ≤ q) : towardZero (-q) = -⌊q⌋ := by
  unfold towardZero
  split
  · next hneg =>
    obtain rfl : q = 0 := le_antisymm (neg_nonneg.mp hneg) h
    simp
  · exact Int.ceil_neg

/-- A product with a power of two is a quotient of natural numbers, one of whose terms is one. -/
theorem mul_zpow_two (m : ℕ) (e : ℤ) :
    (m : ℚ) * 2 ^ e = ((m * 2 ^ e.toNat : ℕ) : ℚ) / ((2 ^ (-e).toNat : ℕ) : ℚ) := by
  rcases Int.le_total 0 e with h | h
  · obtain ⟨n, rfl⟩ := Int.eq_ofNat_of_zero_le h
    simp
  · obtain ⟨n, hn⟩ := Int.eq_ofNat_of_zero_le (Int.neg_nonneg_of_nonpos h)
    obtain rfl : e = -n := by omega
    simp [div_eq_mul_inv]

/-- **Cutting off a fraction.** A finite number is cut off at the integer next to it on the side of
zero, and no other number is. -/
theorem truncate?_eq (x : Binary64) : x.truncate? = (value? x).map towardZero := by
  cases x with
  | nan => rfl
  | infinite negative => rfl
  | finite negative m e =>
    have hfloor : ⌊(m : ℚ) * 2 ^ e⌋ = ((m * 2 ^ e.toNat / 2 ^ (-e).toNat : ℕ) : ℤ) := by
      rw [mul_zpow_two, Rat.floor_natCast_div_natCast]
      rfl
    have hnonneg : (0 : ℚ) ≤ m * 2 ^ e := mul_nonneg m.cast_nonneg (zpow_nonneg (by decide) e)
    rw [value?, Binary64.truncate?, Option.map_some]
    cases negative with
    | false => exact congrArg some ((towardZero_of_nonneg hnonneg).trans hfloor).symm
    | true =>
      exact congrArg some
        ((towardZero_neg_of_nonneg hnonneg).trans (congrArg Neg.neg hfloor)).symm

end SchemaAudit.Number
