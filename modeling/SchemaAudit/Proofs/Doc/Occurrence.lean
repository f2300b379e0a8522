import SchemaAudit.Proofs.Results

/-!
# Values inside documents

A document is a tree, and readers hand its parts on to other readers. Two kinds of numbers make a
reader fail in a way of their own, wherever they stand in the tree: infinite ones, and integers with
too many digits for a text.

- `Doc.Occurs`: a value stands somewhere in a document.
- `Doc.isWritable_iff`: a document has a text if all integers in it have one.
- `Doc.DrawnFrom`: one document has no such numbers that do not stand in the other one. The parts
  of a document are drawn from it, and so are the values that stand for what it leaves out.
-/

namespace SchemaAudit.Doc

/-! ### Occurrences -/

/-- The value `x` stands in a document: it is the document itself, or stands in one of its items,
keys or values. -/
inductive Occurs (x : Doc) : Doc → Prop where
  | here : Occurs x x
  | item {d : Doc} {ds : List Doc} (hd : d ∈ ds) (h : Occurs x d) : Occurs x (.list ds)
  | key {k v : Doc} {es : List (Doc × Doc)} (he : (k, v) ∈ es) (h : Occurs x k) :
    Occurs x (.map es)
  | value {k v : Doc} {es : List (Doc × Doc)} (he : (k, v) ∈ es) (h : Occurs x v) :
    Occurs x (.map es)

theorem Occurs.trans {x y d : Doc} (hx : Occurs x y) (hy : Occurs y d) : Occurs x d := by
  induction hy with
  | here => exact hx
  | item hd _ ih => exact .item hd ih
  | key he _ ih => exact .key he ih
  | value he _ ih => exact .value he ih

theorem occurs_list_iff {x : Doc} {ds : List Doc} :
    Occurs x (.list ds) ↔ x = .list ds ∨ ∃ d ∈ ds, Occurs x d := by
  constructor
  · intro h
    cases h with
    | here => exact .inl rfl
    | item hd h => exact .inr ⟨_, hd, h⟩
  · rintro (rfl | ⟨d, hd, h⟩)
    · exact .here
    · exact .item hd h

theorem occurs_map_iff {x : Doc} {es : List (Doc × Doc)} :
    Occurs x (.map es) ↔ x = .map es ∨ ∃ e ∈ es, Occurs x e.1 ∨ Occurs x e.2 := by
  constructor
  · intro h
    cases h with
    | here => exact .inl rfl
    | key he h => exact .inr ⟨_, he, .inl h⟩
    | value he h => exact .inr ⟨_, he, .inr h⟩
  · rintro (rfl | ⟨e, he, h | h⟩)
    · exact .here
    · exact .key he h
    · exact .value he h

/-- All integers in a document have a text. -/
def IntegersWritable (d : Doc) : Prop :=
  ∀ n, Occurs (.int n) d → Number.isWritable n = true

theorem integersWritable_list_iff {ds : List Doc} :
    IntegersWritable (.list ds) ↔ ∀ d ∈ ds, IntegersWritable d := by
  simp only [IntegersWritable, occurs_list_iff, reduceCtorEq, false_or]
  exact ⟨fun h d hd n hn => h n ⟨d, hd, hn⟩, fun h n ⟨d, hd, hn⟩ => h d hd n hn⟩

theorem integersWritable_map_iff {es : List (Doc × Doc)} :
    IntegersWritable (.map es) ↔ ∀ e ∈ es, IntegersWritable e.1 ∧ IntegersWritable e.2 := by
  simp only [IntegersWritable, occurs_map_iff, reduceCtorEq, false_or]
  constructor
  · exact fun h e he => ⟨fun n hn => h n ⟨e, he, .inl hn⟩, fun n hn => h n ⟨e, he, .inr hn⟩⟩
  · rintro h n ⟨e, he, hn | hn⟩
    · exact (h e he).1 n hn
    · exact (h e he).2 n hn

/-- A value that is neither an integer nor has parts holds no integer. -/
theorem integersWritable_of_atom {d : Doc} (hint : ∀ n, d ≠ .int n) (hatom : d.isAtom = true) :
    IntegersWritable d := by
  intro n hn
  cases hn with
  | here => exact absurd rfl (hint n)
  | item => cases hatom
  | key => cases hatom
  | value => cases hatom

theorem integersWritable_int_iff {n : Int} :
    IntegersWritable (.int n) ↔ Number.isWritable n = true := by
  constructor
  · exact fun h => h n .here
  · rintro h m hm
    cases hm
    exact h

mutual

/-- A document has a text if all integers in it have one. -/
theorem isWritable_iff : (d : Doc) → (d.isWritable = true ↔ IntegersWritable d)
  | .null => iff_of_true rfl (integersWritable_of_atom nofun rfl)
  | .bool _ => iff_of_true rfl (integersWritable_of_atom nofun rfl)
  | .int _ => integersWritable_int_iff.symm
  | .float _ => iff_of_true rfl (integersWritable_of_atom nofun rfl)
  | .text _ => iff_of_true rfl (integersWritable_of_atom nofun rfl)
  | .date _ => iff_of_true rfl (integersWritable_of_atom nofun rfl)
  | .moment _ => iff_of_true rfl (integersWritable_of_atom nofun rfl)
  | .list ds => by
    rw [integersWritable_list_iff, ← areWritable_iff ds]
    rfl
  | .map es => by
    rw [integersWritable_map_iff, ← areWritableEntries_iff es]
    rfl

theorem areWritable_iff : (ds : List Doc) →
    (areWritable ds = true ↔ ∀ d ∈ ds, IntegersWritable d)
  | [] => iff_of_true rfl fun _ hd => absurd hd List.not_mem_nil
  | d :: ds => by
    rw [List.forall_mem_cons, ← isWritable_iff d, ← areWritable_iff ds, ← Bool.and_eq_true]
    rfl

theorem areWritableEntries_iff : (es : List (Doc × Doc)) →
    (areWritableEntries es = true ↔ ∀ e ∈ es, IntegersWritable e.1 ∧ IntegersWritable e.2)
  | [] => iff_of_true rfl fun _ he => absurd he List.not_mem_nil
  | (k, v) :: es => by
    rw [List.forall_mem_cons, ← isWritable_iff k, ← isWritable_iff v, ← areWritableEntries_iff es,
      ← Bool.and_eq_true, ← Bool.and_eq_true]
    rfl

end

/-! ### Extreme numbers -/

/-- An infinite number, or an integer without a text. -/
def IsExtreme : Doc → Prop
  | .int n => Number.isWritable n = false
  | .float (.infinite _) => True
  | _ => False

/-- The extreme numbers in `e` stand in `d`, too. -/
def DrawnFrom (e d : Doc) : Prop :=
  ∀ x, IsExtreme x → Occurs x e → Occurs x d

theorem DrawnFrom.trans {e f d : Doc} (he : DrawnFrom e f) (hf : DrawnFrom f d) : DrawnFrom e d :=
  fun x hx h => hf x hx (he x hx h)

theorem Occurs.drawnFrom {e d : Doc} (h : Occurs e d) : DrawnFrom e d :=
  fun _ _ hx => hx.trans h

theorem DrawnFrom.refl (d : Doc) : DrawnFrom d d :=
  Occurs.here.drawnFrom

/-- A value without parts that is not extreme is drawn from any document. -/
theorem drawnFrom_of_atom {e : Doc} (hatom : e.isAtom = true) (he : ¬ IsExtreme e) (d : Doc) :
    DrawnFrom e d := by
  intro x hx h
  cases h with
  | here => exact absurd hx he
  | item => cases hatom
  | key => cases hatom
  | value => cases hatom

theorem drawnFrom_null (d : Doc) : DrawnFrom .null d :=
  drawnFrom_of_atom rfl id d

theorem drawnFrom_text (s : String) (d : Doc) : DrawnFrom (.text s) d :=
  drawnFrom_of_atom rfl id d

theorem drawnFrom_int {n : Int} (h : Number.isWritable n = true) (d : Doc) :
    DrawnFrom (.int n) d := by
  refine drawnFrom_of_atom rfl (fun hextreme => ?_) d
  have hn : Number.isWritable n = false := hextreme
  rw [h] at hn
  cases hn

theorem occurs_of_get? {d v : Doc} {name : String} (h : d.get? name = some v) : Occurs v d := by
  cases d with
  | map es =>
    exact .value (Snapshot.fieldOf?_mem h) .here
  | _ => cases h

/-- The value of a field, or of its default, is drawn from the document. -/
theorem drawnFrom_fieldOr {d fallback : Doc} (name : String) (h : DrawnFrom fallback d) :
    DrawnFrom (Snapshot.fieldOr d name fallback) d := by
  unfold Snapshot.fieldOr
  cases hv : d.get? name with
  | none => exact h
  | some v => exact (occurs_of_get? hv).drawnFrom

theorem drawnFrom_get (d : Doc) (name : String) : DrawnFrom (d.get name) d :=
  drawnFrom_fieldOr name (drawnFrom_null d)

theorem drawnFrom_of_mem_items {d e : Doc} {ds : List Doc} (h : d.items? = some ds) (he : e ∈ ds) :
    DrawnFrom e d := by
  cases d with
  | list =>
    obtain rfl := Option.some.inj h
    exact (Occurs.item he .here).drawnFrom
  | map es =>
    obtain rfl := Option.some.inj h
    obtain ⟨⟨k, v⟩, hmem, rfl⟩ := List.mem_map.mp he
    exact (Occurs.key hmem .here).drawnFrom
  | text s =>
    obtain rfl := Option.some.inj h
    obtain ⟨c, -, rfl⟩ := List.mem_map.mp he
    exact drawnFrom_text _ _
  | _ => cases h

theorem drawnFrom_of_mem_parts {d e : Doc} {ds : List Doc} (h : d.parts? = some ds) (he : e ∈ ds) :
    DrawnFrom e d := by
  unfold parts? at h
  split at h
  · exact drawnFrom_of_mem_items h he
  · obtain rfl := Option.some.inj h
    exact absurd he List.not_mem_nil

theorem drawnFrom_asNames (d : Doc) : DrawnFrom d.asNames d := by
  cases d with
  | text s =>
    intro x hx h
    rcases occurs_list_iff.mp h with rfl | ⟨e, he, h⟩
    · exact absurd hx id
    · obtain rfl := List.mem_singleton.mp he
      exact h
  | _ => exact .refl _

end SchemaAudit.Doc
