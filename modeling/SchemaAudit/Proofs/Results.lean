import Mathlib.Data.List.Forall2
import SchemaAudit.Snapshot.Fields

/-!
# Readings that succeed

Every reader of a document answers with a value or with the first failure. Here stand the laws by
which a successful reading is taken apart into the successful readings of its parts.

- `bind_eq_ok_iff`, `mapM_eq_ok_iff`: one reading after the other, and one for each part of a list.
- `mapM_eq_error_iff`: the first part of a list that fails.
- `Accepted`: a reading that succeeds, when its value does not matter.
- `readNames_eq_ok_iff`, `readList_eq_ok_iff`: the lists of a definition, part by part.
-/

namespace SchemaAudit

section Results

variable {ε α β : Type}

theorem bind_eq_ok_iff {x : Except ε α} {f : α → Except ε β} {b : β} :
    (x >>= f) = .ok b ↔ ∃ a, x = .ok a ∧ f a = .ok b := by
  cases x with
  | error e => simp [bind, Except.bind]
  | ok a => simp [bind, Except.bind]

/-- What follows a successful reading goes on with its value. -/
theorem bind_eq_of_ok {x : Except ε α} {f : α → Except ε β} {a : α} (h : x = .ok a) :
    x >>= f = f a := by
  rw [h]
  rfl

/-- What follows a failure is not read. -/
theorem bind_eq_of_error {x : Except ε α} {f : α → Except ε β} {e : ε} (h : x = .error e) :
    x >>= f = .error e := by
  rw [h]
  rfl

theorem mapError_eq_ok_iff {δ : Type} {g : ε → δ} {x : Except ε α} {a : α} :
    x.mapError g = .ok a ↔ x = .ok a := by
  cases x with
  | error e => simp [Except.mapError]
  | ok b => simp [Except.mapError]

theorem mapError_eq_error_iff {δ : Type} {g : ε → δ} {x : Except ε α} {f : δ} :
    x.mapError g = .error f ↔ ∃ e, x = .error e ∧ g e = f := by
  cases x with
  | error e => simp [Except.mapError]
  | ok b => simp [Except.mapError]

/-- A reading fails as it is said to, if it succeeds as it is said to and every case is covered. -/
theorem eq_error_iff_of_total {x : Except ε α} {succeeds : α → Prop}
    {fails : ε → Prop} (hok : ∀ a, x = .ok a ↔ succeeds a) (herror : ∀ f, fails f → x = .error f)
    (htotal : (∃ a, succeeds a) ∨ ∃ f, fails f) {f : ε} : x = .error f ↔ fails f := by
  refine ⟨fun h => ?_, herror f⟩
  rcases htotal with ⟨a, ha⟩ | ⟨g, hg⟩
  · cases h.symm.trans ((hok a).mpr ha)
  · exact Except.error.inj (h.symm.trans (herror g hg)) ▸ hg

/-- What stands on the left of a pairing of two lists has a partner on the right. -/
theorem exists_partner {r : α → β → Prop} :
    ∀ {as : List α} {bs : List β}, List.Forall₂ r as bs → ∀ a ∈ as, ∃ b ∈ bs, r a b
  | _, _, .nil, _, ha => absurd ha List.not_mem_nil
  | _, _, .cons (b := b) hab h, c, hc => by
    rcases List.mem_cons.mp hc with rfl | hc
    · exact ⟨b, List.mem_cons_self, hab⟩
    · obtain ⟨d, hd, hcd⟩ := exists_partner h c hc
      exact ⟨d, List.mem_cons_of_mem b hd, hcd⟩

/-- What holds of all on one side of a pairing, if the two sides of a pair agree on it. -/
theorem forall_mem_iff_of_forall₂ {p : α → Prop} {q : β → Prop} :
    ∀ {as : List α} {bs : List β}, List.Forall₂ (fun a b => p a ↔ q b) as bs →
      ((∀ a ∈ as, p a) ↔ ∀ b ∈ bs, q b)
  | _, _, .nil => ⟨fun _ => nofun, fun _ => nofun⟩
  | _, _, .cons hab h => by
    rw [List.forall_mem_cons, List.forall_mem_cons, hab, forall_mem_iff_of_forall₂ h]

/-- Pairs of a pairing, each with the place of its right side. -/
theorem pairs_with_mem {r : α → β → Prop} :
    ∀ {as : List α} {bs : List β}, List.Forall₂ r as bs →
      List.Forall₂ (fun a b => r a b ∧ b ∈ bs) as bs
  | _, _, .nil => .nil
  | _, _, .cons (b := b) hab h =>
    .cons ⟨hab, List.mem_cons_self⟩
      ((pairs_with_mem h).imp fun _ _ hcd => ⟨hcd.1, List.mem_cons_of_mem b hcd.2⟩)

/-- Two pairings with a list in common, one after the other. -/
theorem pairs_comp {γ : Type} {r : α → β → Prop} {s : β → γ → Prop} :
    ∀ {as : List α} {bs : List β} {cs : List γ}, List.Forall₂ r as bs → List.Forall₂ s bs cs →
      List.Forall₂ (fun a c => ∃ b, r a b ∧ s b c) as cs
  | _, _, _, .nil, .nil => .nil
  | _, _, _, .cons hab hr, .cons hbc hs => .cons ⟨_, hab, hbc⟩ (pairs_comp hr hs)

/-- The parts of a list are read from left to right, each by itself. -/
theorem mapM_eq_ok_iff {f : α → Except ε β} :
    ∀ {as : List α} {bs : List β},
      as.mapM f = .ok bs ↔ List.Forall₂ (fun a b => f a = .ok b) as bs
  | [], bs => by
    rw [List.mapM_nil, List.forall₂_nil_left_iff]
    exact ⟨fun h => (Except.ok.inj h).symm, fun h => h ▸ rfl⟩
  | a :: as, bs => by
    rw [List.mapM_cons, bind_eq_ok_iff, List.forall₂_cons_left_iff]
    constructor
    · rintro ⟨b, hb, h⟩
      obtain ⟨cs, hcs, h⟩ := bind_eq_ok_iff.mp h
      exact ⟨b, cs, hb, mapM_eq_ok_iff.mp hcs, (Except.ok.inj h).symm⟩
    · rintro ⟨b, cs, hb, hcs, rfl⟩
      exact ⟨b, hb, bind_eq_ok_iff.mpr ⟨cs, mapM_eq_ok_iff.mpr hcs, rfl⟩⟩

/-- A reading succeeds. -/
def Accepted (x : Except ε α) : Prop :=
  ∃ a, x = .ok a

instance (x : Except ε α) : Decidable (Accepted x) :=
  match x with
  | .ok a => .isTrue ⟨a, rfl⟩
  | .error _ => .isFalse fun ⟨_, h⟩ => nomatch h

/-- A property of the value of a reading can be tested. -/
instance decidableValue (x : Except ε α) (P : α → Prop) [DecidablePred P] :
    Decidable (∃ a, x = .ok a ∧ P a) :=
  match x with
  | .ok a => decidable_of_iff (P a) ⟨fun h => ⟨a, rfl, h⟩, fun ⟨_, rfl, h⟩ => h⟩
  | .error _ => .isFalse fun ⟨_, h, _⟩ => nomatch h

/-- What is only made of the value of a reading does not matter. -/
theorem accepted_bind_ok_iff {x : Except ε α} {g : α → β} :
    Accepted (x >>= fun a => .ok (g a)) ↔ Accepted x := by
  constructor
  · rintro ⟨b, h⟩
    obtain ⟨a, ha, -⟩ := bind_eq_ok_iff.mp h
    exact ⟨a, ha⟩
  · rintro ⟨a, ha⟩
    exact ⟨g a, bind_eq_ok_iff.mpr ⟨a, ha, rfl⟩⟩

/-- Where the second of two steps succeeds, only the first one can fail. -/
theorem bind_eq_error_iff {x : Except ε α} {g : α → Except ε β} {e : ε}
    (hg : ∀ a, Accepted (g a)) : x >>= g = .error e ↔ x = .error e := by
  cases x with
  | error e' =>
    constructor
    · exact fun h => congrArg _ (Except.error.inj h)
    · exact fun h => congrArg _ (Except.error.inj h)
  | ok a =>
    obtain ⟨b, hb⟩ := hg a
    show g a = .error e ↔ _
    rw [hb]
    exact ⟨nofun, nofun⟩

theorem bind_ok_eq_error_iff {x : Except ε α} {g : α → β} {e : ε} :
    (x >>= fun a => .ok (g a)) = .error e ↔ x = .error e :=
  bind_eq_error_iff fun a => ⟨g a, rfl⟩

/-- What a test lets through succeeds. -/
theorem ite_eq_ok_iff {fails : Bool} {e : ε} {a b : α} :
    (if fails then .error e else .ok a : Except ε α) = .ok b ↔ fails = false ∧ b = a := by
  cases fails with
  | true => simp
  | false => simp [eq_comm]

theorem ite_eq_error_iff {fails : Bool} {e : ε} {a : α} :
    (if fails then .error e else .ok a : Except ε α) = .error e ↔ fails = true := by
  cases fails with
  | true => simp
  | false => simp

/-- Parts that all fail in one way: a list of them is read if a test accepts each. -/
theorem mapM_eq_ite {f : α → Except ε β} {p : α → Bool} {g : α → β} {e : ε}
    (h : ∀ a, f a = if p a then .ok (g a) else .error e) :
    ∀ as : List α, as.mapM f = if as.all p then .ok (as.map g) else .error e
  | [] => rfl
  | a :: as => by
    rw [List.mapM_cons, mapM_eq_ite h as, h a, List.all_cons, List.map_cons]
    cases p a with
    | false => rfl
    | true =>
      rw [Bool.true_and, if_pos rfl]
      split
      · rfl
      · rfl

/-- Whether a list is accepted does not depend on the order of its parts. -/
theorem accepted_mapM_iff {f : α → Except ε β} {as : List α} :
    Accepted (as.mapM f) ↔ ∀ a ∈ as, Accepted (f a) := by
  constructor
  · rintro ⟨bs, h⟩ a ha
    obtain ⟨b, -, hb⟩ := exists_partner (mapM_eq_ok_iff.mp h) a ha
    exact ⟨b, hb⟩
  · intro h
    induction as with
    | nil => exact ⟨[], rfl⟩
    | cons a as ih =>
      obtain ⟨b, hb⟩ := h a List.mem_cons_self
      obtain ⟨bs, hbs⟩ := ih fun c hc => h c (List.mem_cons_of_mem a hc)
      exact ⟨b :: bs, mapM_eq_ok_iff.mpr (.cons hb (mapM_eq_ok_iff.mp hbs))⟩

/-- The parts of a list are read up to the first one that fails. -/
theorem mapM_eq_error_iff {f : α → Except ε β} {e : ε} :
    ∀ {as : List α}, as.mapM f = .error e ↔
      ∃ before a after, as = before ++ a :: after ∧ (∀ b ∈ before, Accepted (f b)) ∧
        f a = .error e
  | [] => by
    refine ⟨nofun, ?_⟩
    rintro ⟨before, a, after, hnil, -⟩
    cases before <;> cases hnil
  | a :: as => by
    rw [List.mapM_cons]
    cases ha : f a with
    | error e' =>
      constructor
      · rintro ⟨⟩
        exact ⟨[], a, as, rfl, nofun, ha⟩
      · rintro ⟨before, b, after, heq, hbefore, hb⟩
        cases before with
        | nil =>
          obtain ⟨rfl, -⟩ := List.cons.inj heq
          obtain rfl := Except.error.inj (ha.symm.trans hb)
          rfl
        | cons c before =>
          obtain ⟨rfl, -⟩ := List.cons.inj heq
          obtain ⟨c, hc⟩ := hbefore a List.mem_cons_self
          cases ha.symm.trans hc
    | ok b =>
      refine bind_ok_eq_error_iff.trans (mapM_eq_error_iff.trans ⟨?_, ?_⟩)
      · rintro ⟨before, c, after, rfl, hbefore, hc⟩
        exact ⟨a :: before, c, after, rfl, List.forall_mem_cons.mpr ⟨⟨b, ha⟩, hbefore⟩, hc⟩
      · rintro ⟨before, c, after, heq, hbefore, hc⟩
        cases before with
        | nil =>
          obtain ⟨rfl, -⟩ := List.cons.inj heq
          cases ha.symm.trans hc
        | cons d before =>
          obtain ⟨rfl, rfl⟩ := List.cons.inj heq
          exact ⟨before, c, after, rfl, (List.forall_mem_cons.mp hbefore).2, hc⟩

/-- A fold that reads one part after the other reads all of them, and goes on with their values. -/
theorem foldlM_eq_mapM {γ : Type} {f : α → Except ε β} {g : γ → β → γ} :
    ∀ {as : List α} {c : γ},
      as.foldlM (fun c a => f a >>= fun b => .ok (g c b)) c =
        as.mapM f >>= fun bs => .ok (bs.foldl g c)
  | [], c => rfl
  | a :: as, c => by
    rw [List.foldlM_cons, List.mapM_cons]
    cases ha : f a with
    | error e => rfl
    | ok b =>
      show as.foldlM _ (g c b) = _
      rw [foldlM_eq_mapM]
      cases as.mapM f with
      | error e => rfl
      | ok bs => rfl

/-- A check of every element passes if it passes for each. -/
theorem forM_eq_ok_iff {f : α → Except ε Unit} :
    ∀ {as : List α} {u : Unit}, as.forM f = .ok u ↔ ∀ a ∈ as, f a = .ok ()
  | [], u => ⟨fun _ a ha => absurd ha List.not_mem_nil, fun _ => rfl⟩
  | a :: as, u => by
    show (f a >>= fun _ => as.forM f) = .ok u ↔ _
    rw [bind_eq_ok_iff, List.forall_mem_cons]
    constructor
    · rintro ⟨v, ha, has⟩
      exact ⟨ha, forM_eq_ok_iff.mp has⟩
    · rintro ⟨ha, has⟩
      exact ⟨(), ha, forM_eq_ok_iff.mpr has⟩

/-- A check of several elements ends with the first one that fails. -/
theorem forM_eq_error {f : α → Except ε Unit} {a : α} {after : List α} {e : ε}
    (ha : f a = .error e) :
    ∀ {before : List α}, (∀ b ∈ before, Accepted (f b)) → (before ++ a :: after).forM f = .error e
  | [], _ => bind_eq_of_error ha
  | b :: before, hbefore => by
    obtain ⟨⟨u, hu⟩, hbefore⟩ := List.forall_mem_cons.mp hbefore
    exact (bind_eq_of_ok hu).trans (forM_eq_error ha hbefore)

end Results

/-! ### Steps of the readers of definitions -/

namespace Snapshot

theorem require_eq_ok_iff {holds : Bool} {fault : SnapshotFault} {u : Unit} :
    require holds fault = .ok u ↔ holds = true := by
  cases holds with
  | false => simp [require]
  | true => simp [require]

theorem readParts_eq_ok_iff {d : Doc} {ds : List Doc} :
    readParts d = .ok ds ↔ d.parts? = some ds := by
  unfold readParts
  cases d.parts? with
  | none => simp
  | some es => simp

@[simp] theorem parts?_list (ds : List Doc) : (Doc.list ds).parts? = some ds := by
  cases ds with
  | nil => rfl
  | cons d ds => rfl

theorem fieldOf?_mem {name : String} {v : Doc} :
    ∀ {es : List (Doc × Doc)}, Doc.fieldOf? name es = some v → (.text name, v) ∈ es
  | (k, w) :: es, h => by
    rw [Doc.fieldOf?] at h
    split at h
    · next hk =>
      obtain rfl := Option.some.inj h
      rw [hk]
      exact List.mem_cons_self
    · exact List.mem_cons_of_mem _ (fieldOf?_mem h)

theorem requireKnown_eq_ok_iff {d : Doc} {known : List String} {fault : List String → Failure}
    {u : Unit} :
    d.requireKnown known fault = .ok u ↔
      ∀ k ∈ d.entries.map (·.1), k ∈ known.map Doc.text := by
  have hnil : d.unknownKeys known = [] ↔ ∀ k ∈ d.entries.map (·.1), k ∈ known.map Doc.text := by
    rw [Doc.unknownKeys, List.filter_eq_nil_iff]
    simp only [Bool.not_eq_true', List.contains_eq_mem, decide_eq_false_iff_not, not_not]
  rw [← hnil]
  unfold Doc.requireKnown
  split
  · next h => exact ⟨fun _ => h, fun _ => rfl⟩
  · next k ks h =>
    rw [h, bind_eq_ok_iff]
    constructor
    · rintro ⟨names, -, hnames⟩
      cases hnames
    · exact fun hcons => absurd hcons (List.cons_ne_nil k ks)

/-- A list is read part by part. -/
theorem readList_eq_ok_iff {α : Type} {read : Doc → Except Failure α} {d : Doc} {as : List α} :
    readList read d = .ok as ↔
      ∃ ds, d.parts? = some ds ∧ List.Forall₂ (fun e a => read e = .ok a) ds as := by
  unfold readList
  simp only [bind_eq_ok_iff, readParts_eq_ok_iff, mapM_eq_ok_iff]

theorem asNames_isPresent {d : Doc} (h : d.isPresent = true) : d.asNames.isPresent = true := by
  cases d with
  | text s => rfl
  | _ => exact h

/-- A value that says something names at least one thing. -/
theorem asNames_items_ne_nil {d : Doc} (h : d.isPresent = true) : d.asNames.items? ≠ some [] := by
  cases d with
  | list ds =>
    rintro ⟨⟩
    cases h
  | map es =>
    intro hnil
    obtain rfl := List.map_eq_nil_iff.mp (Option.some.inj hnil)
    cases h
  | text s => exact fun hnil => List.cons_ne_nil _ _ (Option.some.inj hnil)
  | _ => exact fun hnil => nomatch hnil

/-- A list of names has the parts of the value, and none where there is no value. -/
theorem readNames_eq_ok_iff {d : Doc} {ds : List Doc} :
    readNames d = .ok ds ↔
      if d.isPresent then d.asNames.items? = some ds else ds = [] := by
  unfold readNames
  by_cases h : d.isPresent = true
  · rw [if_pos h, if_pos h, readParts_eq_ok_iff, Doc.parts?, if_pos (asNames_isPresent h)]
  · rw [if_neg h, if_neg h]
    exact ⟨fun e => (Except.ok.inj e).symm, fun e => e ▸ rfl⟩

end Snapshot

end SchemaAudit
