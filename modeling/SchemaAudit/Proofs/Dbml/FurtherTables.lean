import Mathlib.Data.List.Flatten
import Mathlib.Data.List.Perm.Basic
import SchemaAudit.Proofs.Dbml.Layout

/-!
# Tables written together with further ones

The block of a table depends on the table alone, and its `Ref` lines on where its relationships
lead: a referenced table is looked up among those that are written, and counts as one that nothing
is known of where it is not among them. When further tables are written as well, under names of
their own, some references are found that were not found before, and that is all that changes in
the lines of the others. In the text there is one thing more, since the last line of a text is
trimmed: it may stand in the middle of the longer text, and is not trimmed there.

- `Joins`: tables written together with further ones, wherever these stand among them.
- `lastNamed?_of_joins`: what is looked up among the tables stays what it is.
- `KeepsLines`: the lines of a relationship, before and after.
- `document_of_joins`: the two texts, the blocks in them and the `Ref` lines.
-/

namespace SchemaAudit.Dbml

/-- The tables `all` are the tables `ts`, in the same order, and further ones whose names do not
occur among them. The further tables can stand anywhere. -/
structure Joins (ts further all : List Table) : Prop where
  order : ts.Sublist all
  tables : all.Perm (ts ++ further)
  names : ∀ u ∈ further, ∀ t ∈ ts, u.name ≠ t.name

/-- The lines of a relationship of the table `t`, with the sign of a cardinality. -/
def signedLines (t : Table) (r : Relationship) (c : Cardinality) : List String :=
  (r.childKey.columns.zip r.parentKey.columns).map (pairLine t.name r.parentTable c.sign)

/-- The lines of a relationship `r` of the table `t`, written for the tables `ts` and for the tables
`all` with the further ones. Each time they have one sign. This can turn to one-to-one where the
referenced table is a further one, and is the same otherwise. -/
structure KeepsLines (ts further all : List Table) (t : Table) (r : Relationship) : Prop where
  lines : ∃ c c' : Cardinality,
    relationshipLines ts t.name r = signedLines t r c ∧
      relationshipLines all t.name r = signedLines t r c' ∧
      (c' = c ∨ c = .oneToMany ∧ c' = .oneToOne ∧ ∃ u ∈ further, u.name = r.parentTable)

/-! ### References that are looked up -/

section Joins

variable {ts further all : List Table} {name : Identifier}

/-- The tables are those of `all` with the names of the tables. -/
theorem Joins.filter_eq (h : Joins ts further all) :
    (all.filter fun t => decide (t.name ∈ ts.map (·.name))) = ts := by
  let named (t : Table) : Bool := decide (t.name ∈ ts.map (·.name))
  have hts : ts.filter named = ts :=
    List.filter_eq_self.mpr fun t ht => decide_eq_true (List.mem_map_of_mem ht)
  have hfurther : further.filter named = [] := by
    refine List.filter_eq_nil_iff.mpr fun u hu hnamed => ?_
    obtain ⟨t, ht, heq⟩ := List.mem_map.mp (of_decide_eq_true hnamed)
    exact h.names u hu t ht heq.symm
  -- what remains holds the tables in their order, and has no place for more
  have hsublist : ts.Sublist (all.filter named) := hts ▸ h.order.filter named
  have hperm := h.tables.filter named
  rw [List.filter_append, hts, hfurther, List.append_nil] at hperm
  exact (hsublist.eq_of_length hperm.length_eq.symm).symm

/-- A table of the given name is found among the tables where it was found before. -/
theorem lastNamed?_of_joins (h : Joins ts further all) (hname : name ∈ ts.map (·.name)) :
    lastNamed? all name = lastNamed? ts name := by
  rw [lastNamed?, lastNamed?]
  conv_rhs => rw [← h.filter_eq, ← List.filter_reverse, List.find?_filter]
  congr 1
  funext t
  rw [Bool.eq_iff_iff]
  constructor
  · intro hbeq
    have hmem : t.name ∈ ts.map (·.name) := (eq_of_beq hbeq).symm ▸ hname
    exact decide_eq_true ⟨decide_eq_true hmem, hbeq⟩
  · exact fun hboth => (of_decide_eq_true hboth).2

/-- Under another name, a further table can be found, and none was found before. -/
theorem lastNamed?_of_notMem (h : Joins ts further all) (hname : name ∉ ts.map (·.name)) :
    lastNamed? ts name = none ∧
      ∀ p, lastNamed? all name = some p → p ∈ further ∧ p.name = name := by
  have hnot : ∀ t ∈ ts, t.name ≠ name := fun t ht heq => hname (heq ▸ List.mem_map_of_mem ht)
  refine ⟨?_, fun p hp => ?_⟩
  · rw [lastNamed?, List.find?_eq_none]
    intro t ht hbeq
    exact hnot t (List.mem_reverse.mp ht) (eq_of_beq hbeq)
  · rw [lastNamed?] at hp
    have hpname : p.name = name := key_of_find?_eq_some hp
    have hmem : p ∈ all := List.mem_reverse.mp (List.mem_of_find?_eq_some hp)
    rcases List.mem_append.mp (h.tables.mem_iff.mp hmem) with hpts | hpfurther
    · exact absurd hpname (hnot p hpts)
    · exact ⟨hpfurther, hpname⟩

theorem relationshipLines_eq (known : List Table) (t : Table) (r : Relationship) :
    relationshipLines known t.name r =
      signedLines t r (r.cardinality (lastNamed? known r.parentTable)) :=
  rfl

/-- Only a relationship to a further table can turn to one-to-one. -/
theorem keepsLines_of_joins (h : Joins ts further all) (t : Table) (r : Relationship) :
    KeepsLines ts further all t r := by
  refine ⟨_, _, relationshipLines_eq ts t r, relationshipLines_eq all t r, ?_⟩
  by_cases hname : r.parentTable ∈ ts.map (·.name)
  · rw [lastNamed?_of_joins h hname]
    exact .inl rfl
  · -- nothing was known of the referenced table, which made the relationship one-to-many
    obtain ⟨hnone, hfurther⟩ := lastNamed?_of_notMem h hname
    rw [hnone]
    cases hfound : lastNamed? all r.parentTable with
    | none => exact .inl rfl
    | some p =>
      obtain ⟨hp, hpname⟩ := hfurther p hfound
      cases hc : r.cardinality (some p) with
      | oneToMany => exact .inl rfl
      | oneToOne => exact .inr ⟨rfl, rfl, p, hp, hpname⟩

/-! ### The two texts -/

/-- Where every table has its block, fewer tables have some of the blocks. -/
theorem zip_sublist {blocks blocks' : List (List String)} (h : ts.Sublist all)
    (hblocks : List.Forall₂ (fun t block => tableLines t = .ok block) ts blocks)
    (hblocks' : List.Forall₂ (fun t block => tableLines t = .ok block) all blocks') :
    (ts.zip blocks).Sublist (all.zip blocks') := by
  induction h generalizing blocks blocks' with
  | slnil => exact List.nil_sublist _
  | cons t _ ih =>
    obtain ⟨block, rest, -, hrest, rfl⟩ := List.forall₂_cons_left_iff.mp hblocks'
    exact (ih hblocks hrest).cons _
  | cons_cons t _ ih =>
    -- a table of both lists has the same block in both, since it is written without the others
    obtain ⟨block, rest, hblock, hrest, rfl⟩ := List.forall₂_cons_left_iff.mp hblocks
    obtain ⟨block', rest', hblock', hrest', rfl⟩ := List.forall₂_cons_left_iff.mp hblocks'
    obtain rfl := Except.ok.inj (hblock.symm.trans hblock')
    exact (ih hrest hrest').cons_cons _

theorem accepted_document_of_joins (h : Joins ts further all) :
    Accepted (document all) ↔ Accepted (document ts) ∧ Accepted (document further) := by
  rw [accepted_document_iff, accepted_document_iff, accepted_document_iff, ← List.forall_mem_append]
  exact forall_congr' fun t => imp_congr_left h.tables.mem_iff

/-- **What further tables change.** Tables are written together with further ones, whose names do
not occur among them. The text exists if there is one of the tables and one of the further ones, and
then the blocks of the tables stand in it unchanged and in the same order. So do their `Ref` lines,
apart from the sign: it is the same in all lines of a relationship, and turns from one-to-many to
one-to-one only if the relationship leads to a further table. What is trimmed is the end of each
text, so that only the last line of it can lack blanks which it has elsewhere. -/
theorem document_of_joins (h : Joins ts further all) :
    (Accepted (document all) ↔ Accepted (document ts) ∧ Accepted (document further)) ∧
      (∀ text', document all = .ok text' → ∃ text blocks blocks',
        document ts = .ok text ∧ LaidOut ts blocks text ∧ LaidOut all blocks' text' ∧
          (ts.zip blocks).Sublist (all.zip blocks')) ∧
      (allReferences all ts).Sublist (allReferences all all) ∧
      ∀ t ∈ ts, ∀ r ∈ t.parentKeys, KeepsLines ts further all t r := by
  refine ⟨accepted_document_of_joins h, fun text' htext' => ?_, h.order.flatMap _,
    fun t _ r _ => keepsLines_of_joins h t r⟩
  obtain ⟨blocks', hlaid'⟩ := laidOut_of_document htext'
  obtain ⟨⟨text, htext⟩, -⟩ := (accepted_document_of_joins h).mp ⟨text', htext'⟩
  obtain ⟨blocks, hlaid⟩ := laidOut_of_document htext
  exact ⟨text, blocks, blocks', htext, hlaid, hlaid', zip_sublist h.order hlaid.written
    hlaid'.written⟩

end Joins

/-- Stops with a candidate key. -/
def keyedStops : Table where
  name := .bare "stop"
  columns := [textColumn "stop"]
  primaryKey := some ⟨.null, .primary, [textColumn "stop"], .bool true⟩

/-- The text of trips to the stops with a candidate key. -/
def keyedTrips (c : Cardinality) : String :=
  "Table trip \x7b\n    stop text [null]\n\x7d\n\nRef: trip.stop " ++ c.sign ++ " stop.stop"

/-- When the stops are put in front of the trips, the block of the trips stays what it is, and a
trip becomes the only one to its stop. -/
theorem keyedStops_then_trips :
    let ts := [trips [tripToStop ["stop"] ["stop"]]]
    let all := keyedStops :: ts
    let text := keyedTrips .oneToMany
    let text' := "Table stop \x7b\n    stop text [null, primary key]\n\x7d\n\n" ++
      keyedTrips .oneToOne
    Joins ts [keyedStops] all ∧ document ts = .ok text ∧ document all = .ok text' ∧
      (∃ blocks blocks', LaidOut ts blocks text ∧ LaidOut all blocks' text' ∧
        (ts.zip blocks).Sublist (all.zip blocks')) ∧
      ∀ t ∈ ts, ∀ r ∈ t.parentKeys, KeepsLines ts [keyedStops] all t r := by
  intro ts all text text'
  have hjoins : Joins ts [keyedStops] all :=
    ⟨List.sublist_cons_self _ _, List.Perm.swap _ _ _, by decide +kernel⟩
  have htext : document ts = .ok text := by decide +kernel
  have htext' : document all = .ok text' := by decide +kernel
  obtain ⟨-, htexts, -, hlines⟩ := document_of_joins hjoins
  obtain ⟨written, blocks, blocks', hwritten, hlaid, hlaid', hblocks⟩ := htexts text' htext'
  obtain rfl : written = text := Except.ok.inj (hwritten.symm.trans htext)
  exact ⟨hjoins, htext, htext', ⟨blocks, blocks', hlaid, hlaid', hblocks⟩, hlines⟩

/-- Walks, with a relationship to the stops. -/
def walks : Table where
  name := .bare "walk"
  columns := [textColumn "stop"]
  parentKeys := [{ tripToStop ["stop"] ["place "] with childTable := .bare "walk" }]

/-- With the walks, the `Ref` line of the trips is no longer the last one. The name of its column
has a space at the end, and the line without that space is gone. -/
theorem walks_end_trimming :
    let ts := [stops, trips [tripToStop ["stop"] ["place "]]]
    let text := stopsAndTrips ++ "\n\nRef: trip.stop > stop.place"
    let text' := stopsAndTrips ++ "\n\nTable walk \x7b\n    stop text [null]\n\x7d\n\n" ++
      "Ref: trip.stop > stop.place \nRef: walk.stop > stop.place"
    Joins ts [walks] (ts ++ [walks]) ∧ document ts = .ok text ∧
      document (ts ++ [walks]) = .ok text' ∧
      "Ref: trip.stop > stop.place" ∈ Text.splitString '\n' text ∧
      ∀ sign ∈ [">", "-"],
        "Ref: trip.stop " ++ sign ++ " stop.place" ∉ Text.splitString '\n' text' := by
  intro ts text text'
  exact ⟨⟨List.sublist_append_left _ _, List.Perm.refl _, by decide +kernel⟩, by decide +kernel,
    by decide +kernel, by decide +kernel, by decide +kernel⟩

end SchemaAudit.Dbml
