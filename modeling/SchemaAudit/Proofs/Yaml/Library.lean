import SchemaAudit.Proofs.Doc.Occurrence
import SchemaAudit.Proofs.Yaml.Faults

/-!
# Laws of libraries of YAML

What loading has to know of a library of YAML is little: that it refuses a text which does not
follow the grammar as such a text, that it refuses a time which no calendar or clock shows in
another way, and that no mapping in a document has a key with parts. The laws do not say which
documents texts hold, which texts follow the grammar, or how else a library fails. In particular
they leave open what is made of anchors, merge keys, directives and tags, and of the many texts that
an own tag turns into something that does not exist.

- `Doc.KeyedByAtoms`: no key in a document has parts. The reader of this project has only scalars
  as keys, so this holds of all its documents (`keyedByAtoms_of_read`).
- `WritesImpossibleTime`: a text with which nothing is wrong but a time that does not exist.
- `LawfulLibrary`: the laws; the reader of this project keeps them.
-/

namespace SchemaAudit

/-! ### Keys of mappings -/

namespace Doc

/-- No mapping that stands in the document has a key with parts. -/
def KeyedByAtoms (d : Doc) : Prop :=
  ∀ es, Occurs (.map es) d → ∀ e ∈ es, e.1.isAtom = true

theorem keyedByAtoms_of_isAtom {d : Doc} (h : d.isAtom = true) : KeyedByAtoms d := by
  intro es hes
  cases hes with
  | here => cases h
  | item => cases h
  | key => cases h
  | value => cases h

theorem keyedByAtoms_list {ds : List Doc} (h : ∀ d ∈ ds, KeyedByAtoms d) :
    KeyedByAtoms (.list ds) := by
  intro es hes
  rcases occurs_list_iff.mp hes with heq | ⟨d, hd, hes⟩
  · cases heq
  · exact h d hd es hes

theorem keyedByAtoms_map {es : List (Doc × Doc)}
    (h : ∀ e ∈ es, e.1.isAtom = true ∧ KeyedByAtoms e.2) : KeyedByAtoms (.map es) := by
  intro es' hes'
  rcases occurs_map_iff.mp hes' with heq | ⟨e, he, hes' | hes'⟩
  · obtain rfl := Doc.map.inj heq
    exact fun e he => (h e he).1
  · exact keyedByAtoms_of_isAtom (h e he).1 es' hes'
  · exact (h e he).2 es' hes'

/-- The keys of the mapping in a field have no parts. -/
theorem KeyedByAtoms.of_mem_entries {d : Doc} (h : KeyedByAtoms d) {name : String}
    {e : Doc × Doc} (he : e ∈ (d.get name).entries) : e.1.isAtom = true := by
  cases hv : d.get? name with
  | none =>
    rw [get, hv] at he
    exact absurd he List.not_mem_nil
  | some v =>
    rw [get, hv, Option.getD_some] at he
    cases v with
    | map es => exact h es (occurs_of_get? hv) e he
    | _ => exact absurd he List.not_mem_nil

/-- A mapping stays keyed by atoms when an entry is put into it. -/
theorem keyedByAtoms_putEntry {key value : Doc} (hkey : key.isAtom = true)
    (hvalue : value.KeyedByAtoms) : ∀ {es : List (Doc × Doc)},
      (∀ e ∈ es, e.1.isAtom = true ∧ KeyedByAtoms e.2) →
        ∀ e ∈ putEntry key value es, e.1.isAtom = true ∧ KeyedByAtoms e.2
  | [], _ => List.forall_mem_singleton.mpr ⟨hkey, hvalue⟩
  | (k, v) :: es, h => by
    obtain ⟨hfirst, hrest⟩ := List.forall_mem_cons.mp h
    rw [putEntry]
    split
    · exact List.forall_mem_cons.mpr ⟨⟨hfirst.1, hvalue⟩, hrest⟩
    · exact List.forall_mem_cons.mpr ⟨hfirst, keyedByAtoms_putEntry hkey hvalue hrest⟩

theorem keyedByAtoms_ofEntries {es : List (Doc × Doc)}
    (h : ∀ e ∈ es, e.1.isAtom = true ∧ KeyedByAtoms e.2) : KeyedByAtoms (ofEntries es) := by
  have hfold : ∀ acc : List (Doc × Doc), (∀ e ∈ acc, e.1.isAtom = true ∧ KeyedByAtoms e.2) →
      ∀ e ∈ es.foldl (fun acc e => putEntry e.1 e.2 acc) acc,
        e.1.isAtom = true ∧ KeyedByAtoms e.2 := by
    induction es with
    | nil => exact fun acc hacc => hacc
    | cons e es ih =>
      obtain ⟨⟨hkey, hvalue⟩, hrest⟩ := List.forall_mem_cons.mp h
      intro acc hacc
      exact ih hrest _ (keyedByAtoms_putEntry hkey hvalue hacc)
  exact keyedByAtoms_map (hfold [] fun _ he => absurd he List.not_mem_nil)

end Doc

namespace Yaml

variable {cs : List Char} {d : Doc}

/-! ### Scalars -/

theorem isAtom_of_map {α : Type} {x : Except Fault α} {make : α → Doc}
    (hmake : ∀ a, (make a).isAtom = true) (h : x.map make = .ok d) : d.isAtom = true := by
  cases x with
  | error f => cases h
  | ok a => exact Except.ok.inj h ▸ hmake a

theorem isAtom_of_integer (h : integer? cs = some (.ok d)) : d.isAtom = true := by
  obtain ⟨r, -, hr⟩ := Option.map_eq_some_iff.mp h
  exact isAtom_of_map (fun _ => rfl) hr

theorem isAtom_of_float (h : float? cs = some (.ok d)) : d.isAtom = true := by
  unfold float? at h
  dsimp only at h
  split at h
  · exact Except.ok.inj (Option.some.inj h) ▸ rfl
  · split at h
    · exact Except.ok.inj (Option.some.inj h) ▸ rfl
    · obtain ⟨r, -, hr⟩ := Option.map_eq_some_iff.mp h
      exact isAtom_of_map (fun _ => rfl) hr

theorem isAtom_of_timestamp (h : timestamp? cs = some (.ok d)) : d.isAtom = true := by
  unfold timestamp? at h
  obtain ⟨⟨year, behind⟩, -, h⟩ := Option.bind_eq_some_iff.mp h
  obtain ⟨rest, -, h⟩ := Option.bind_eq_some_iff.mp h
  obtain ⟨⟨month, behind⟩, -, h⟩ := Option.bind_eq_some_iff.mp h
  obtain ⟨rest, -, h⟩ := Option.bind_eq_some_iff.mp h
  obtain ⟨⟨day, rest⟩, -, h⟩ := Option.bind_eq_some_iff.mp h
  dsimp only at h
  -- a date alone, or a date and a time
  split at h
  · split at h
    · exact isAtom_of_map (fun _ => rfl) (Option.some.inj h)
    · cases h
  · obtain ⟨rest, -, h⟩ := Option.bind_eq_some_iff.mp h
    obtain ⟨⟨hour, minute, second, micro, offset⟩, -, h⟩ := Option.bind_eq_some_iff.mp h
    obtain ⟨date, -, h⟩ := bind_eq_ok_iff.mp (Option.some.inj h)
    obtain ⟨moment, -, h⟩ := bind_eq_ok_iff.mp h
    exact Except.ok.inj h ▸ rfl

theorem isAtom_of_plainValue (h : plainValue cs = .ok d) : d.isAtom = true := by
  unfold plainValue at h
  dsimp only at h
  split at h
  · exact Except.ok.inj h ▸ rfl
  · split at h
    · cases h
    · split at h
      · exact Except.ok.inj h ▸ rfl
      · split at h
        · next r hr =>
          subst h
          simp only [Option.orElse_eq_orElse, Option.orElse_eq_or, Option.or_eq_some_iff] at hr
          rcases hr with hr | ⟨-, hr | ⟨-, hr⟩⟩
          · exact isAtom_of_integer hr
          · exact isAtom_of_float hr
          · exact isAtom_of_timestamp hr
        · exact Except.ok.inj h ▸ rfl

theorem isAtom_of_scalarValue {isPlain : Bool} :
    (Node.valueOf (Node.scalarValue isPlain cs)).isAtom = true := by
  cases hvalue : Node.scalarValue isPlain cs with
  | error f => rfl
  | ok d =>
    show d.isAtom = true
    unfold Node.scalarValue at hvalue
    split at hvalue
    · exact isAtom_of_plainValue hvalue
    · exact Except.ok.inj hvalue ▸ rfl

theorem isAtom_of_scalarKey {isPlain : Bool} :
    (Node.valueOf (Node.scalarKey isPlain cs)).isAtom = true := by
  unfold Node.scalarKey
  split
  · rfl
  · exact isAtom_of_scalarValue

/-! ### Trees -/

namespace Node

mutual

/-- No key in the value of a tree has parts: where the tree has one that does, `null` stands in its
place, and the tree has a fault. -/
theorem keyedByAtoms_toDoc : (n : Node) → n.toDoc.KeyedByAtoms
  | .scalar _ _ => Doc.keyedByAtoms_of_isAtom isAtom_of_scalarValue
  | .list ns => Doc.keyedByAtoms_list (keyedByAtoms_itemDocs ns)
  | .map es => Doc.keyedByAtoms_ofEntries (keyedByAtoms_entryDocs es)

theorem keyedByAtoms_itemDocs : (ns : List Node) → ∀ d ∈ itemDocs ns, d.KeyedByAtoms
  | [] => fun _ hd => absurd hd List.not_mem_nil
  | n :: ns => List.forall_mem_cons.mpr ⟨keyedByAtoms_toDoc n, keyedByAtoms_itemDocs ns⟩

theorem keyedByAtoms_entryDocs : (es : List (Node × Node)) →
    ∀ e ∈ entryDocs es, e.1.isAtom = true ∧ e.2.KeyedByAtoms
  | [] => fun _ he => absurd he List.not_mem_nil
  | (.scalar _ _, v) :: es =>
    List.forall_mem_cons.mpr
      ⟨⟨isAtom_of_scalarKey, keyedByAtoms_toDoc v⟩, keyedByAtoms_entryDocs es⟩
  | (.list _, v) :: es =>
    List.forall_mem_cons.mpr ⟨⟨rfl, keyedByAtoms_toDoc v⟩, keyedByAtoms_entryDocs es⟩
  | (.map _, v) :: es =>
    List.forall_mem_cons.mpr ⟨⟨rfl, keyedByAtoms_toDoc v⟩, keyedByAtoms_entryDocs es⟩

end

end Node

/-- The keys in a document that is read from a text have no parts. -/
theorem keyedByAtoms_of_read {text : String} (h : read text = .ok d) : d.KeyedByAtoms := by
  obtain ⟨n, htree, -⟩ := bind_eq_ok_iff.mp h
  cases hfault : n.firstFault? with
  | some f =>
    rw [read_of_fault htree hfault] at h
    cases h
  | none =>
    rw [read_of_no_fault htree hfault] at h
    exact Except.ok.inj h ▸ n.keyedByAtoms_toDoc

/-! ### Laws -/

/-- A plain scalar of the text is written like a time that no calendar or clock shows, and nothing
is wrong with the text but that some of its scalars denote nothing. -/
def WritesImpossibleTime (text : String) : Prop :=
  ∃ n, tree text = .ok n ∧
    (∃ cs ∈ n.plainScalars, timestamp? cs = some (.error .impossible)) ∧
    ∀ f ∈ n.levels.flatten, f = .impossible

/-- A library that tells texts without a grammar from times that do not exist, and gives no mapping
a key with parts. -/
class LawfulLibrary [Library] : Prop where
  /-- A text that does not follow the grammar is refused as one. -/
  malformed : ∀ text, ¬ Library.IsYaml text → Library.read text = .error .malformed
  /-- A time that does not exist is refused as a value that does not. -/
  impossible : ∀ text, WritesImpossibleTime text → Library.read text = .error .impossible
  /-- The keys in a document have no parts. -/
  keys : ∀ text d, Library.read text = .ok d → d.KeyedByAtoms

/-- The reader of this project is such a library. -/
instance : LawfulLibrary where
  malformed text h := by
    have htree : tree text = .error .malformed := not_not.mp h
    show read text = _
    rw [read, htree]
    rfl
  impossible text := by
    rintro ⟨n, htree, ⟨cs, hcs, htime⟩, honly⟩
    exact read_eq_impossible_of_timestamp htree hcs htime honly
  keys _ _ h := keyedByAtoms_of_read h

end Yaml

end SchemaAudit
