import Mathlib.Data.List.ReduceOption
import Mathlib.Data.Option.Basic
import SchemaAudit.Proofs.Results
import SchemaAudit.Proofs.Text.Spacing
import SchemaAudit.Snapshot.Database

/-!
# Qualified names and their parts

A name is made from one to four parts, the widest first, and parts that are absent or blank can
stand in front. What counts is that no part is missing between others and that there is a local
name. Three steps see to this one after the other: the number of parts is tested, blank parts become
absent ones, and the parts that are left are tested in pairs.

- `Qualifies`: which parts make a name. An absent part in front does not matter while there is room
  for it (`qualifies_cons_none`, `ofParts_cons_none`), so that all is settled by four parts.
- `ofParts_eq_ok_iff`: the name has just the parts that are not blank.
- `splitString_text`: the text of a name falls into the parts of the name at its points, if there
  are no points in the parts.
- `ofParts_qualifies`: the two together, and that a synonym whose target is the text of a name has
  this name for its target.
-/

namespace SchemaAudit.Identifier

open Snapshot

/-- A part that says nothing: it is absent, or has no characters but blanks. -/
def BlankPart (part : Option String) : Prop :=
  ∀ text ∈ part, Text.isBlankString text = true

/-- The parts make a name. There are four at most and the last one is the local name. Where a part
is not blank, those behind it are not blank either. -/
@[mk_iff]
structure Qualifies (parts : List (Option String)) : Prop where
  count : parts.length ≤ 4
  localName : ∃ part ∈ parts.getLast?, ¬ BlankPart part
  gapless : parts.Pairwise fun wide narrow => ¬ BlankPart wide → ¬ BlankPart narrow

/-! ### Parts that are not blank -/

theorem nonBlank_eq_none_iff {part : Option String} : nonBlank part = none ↔ BlankPart part := by
  cases part with
  | none => simp [nonBlank, BlankPart]
  | some text => simp [nonBlank, BlankPart, Option.filter]

instance (part : Option String) : Decidable (BlankPart part) :=
  decidable_of_iff _ nonBlank_eq_none_iff

instance (parts : List (Option String)) : Decidable (Qualifies parts) :=
  decidable_of_iff _ (qualifies_iff parts).symm

theorem isSome_nonBlank_iff {part : Option String} :
    (nonBlank part).isSome = true ↔ ¬ BlankPart part := by
  rw [← nonBlank_eq_none_iff, Option.isSome_iff_ne_none]

theorem not_isBlank_of_mem_nonBlank {part : Option String} :
    ∀ text ∈ nonBlank part, Text.isBlankString text = false := by
  intro text htext
  obtain ⟨-, hnot⟩ := Option.filter_eq_some_iff.mp htext
  simpa using hnot

/-- The parts that are not blank are those that stay when blank ones become absent. -/
theorem filter_not_blankPart (parts : List (Option String)) :
    parts.filter (fun part => ¬ BlankPart part) = (parts.map nonBlank).reduceOption.map some := by
  induction parts with
  | nil => rfl
  | cons part parts ih =>
    rw [List.map_cons]
    by_cases hblank : BlankPart part
    · rw [List.filter_cons_of_neg (by simpa using hblank), nonBlank_eq_none_iff.mpr hblank,
        List.reduceOption_cons_of_none, ih]
    · obtain ⟨text, htext⟩ := Option.isSome_iff_exists.mp (isSome_nonBlank_iff.mpr hblank)
      obtain ⟨hpart, -⟩ := Option.filter_eq_some_iff.mp htext
      rw [List.filter_cons_of_pos (by simpa using hblank), htext,
        List.reduceOption_cons_of_some, List.map_cons, ih, hpart]

/-! ### Names from four fields -/

theorem parts_injective : Function.Injective parts := by
  rintro ⟨n, q⟩ ⟨m, r⟩ h
  cases q <;> cases r <;> simp_all [parts, Qualifier.parts]

/-- The name with the given parts. -/
theorem ok_eq_ok_iff {i j : Identifier} {texts : List String} (h : j.parts = texts) :
    (Except.ok j : Except NameFault Identifier) = .ok i ↔ i.parts = texts := by
  rw [← h, parts_injective.eq_iff, Except.ok.injEq]
  exact eq_comm

/-- The fields that are present make a name if each of them has the ones that it requires. -/
theorem ofFields_eq_ok_iff {name schema database server : Option String} {i : Identifier}
    (hname : ∀ text ∈ name, Text.isBlankString text = false) :
    ofFields name schema database server = .ok i ↔
      (name.isSome = true ∧ (database.isSome = true → schema.isSome = true) ∧
        (server.isSome = true → database.isSome = true ∧ schema.isSome = true)) ∧
        i.parts = [server, database, schema, name].reduceOption := by
  cases name with
  | none => simp [ofFields]
  | some n =>
    have hn : Text.isBlankString n = false := hname n rfl
    have hmade (q : Qualifier) :
        (Except.ok ⟨n, q⟩ : Except NameFault Identifier) = .ok i ↔ i.parts = q.parts ++ [n] :=
      ok_eq_ok_iff rfl
    unfold ofFields
    dsimp only
    rw [if_neg (by simp [hn])]
    cases server with
    | none =>
      cases database with
      | none =>
        cases schema with
        | none => simpa [Qualifier.parts] using hmade .bare
        | some s => simpa [Qualifier.parts] using hmade (.schema s)
      | some d =>
        cases schema with
        | none => simp
        | some s => simpa [Qualifier.parts] using hmade (.database d s)
    | some v =>
      cases database with
      | none => simp
      | some d =>
        cases schema with
        | none => simp
        | some s => simpa [Qualifier.parts] using hmade (.server v d s)

/-! ### Names from a list of parts -/

theorem qualifies_four_iff {server database schema name : Option String} :
    Qualifies [server, database, schema, name] ↔
      ¬ BlankPart name ∧ (¬ BlankPart database → ¬ BlankPart schema) ∧
        (¬ BlankPart server → ¬ BlankPart database ∧ ¬ BlankPart schema) := by
  constructor
  · rintro ⟨-, ⟨part, ⟨⟩, hname⟩, hgapless⟩
    simp only [List.pairwise_cons, List.forall_mem_cons] at hgapless
    obtain ⟨⟨hserver, hserver', -⟩, ⟨hdatabase, -⟩, -⟩ := hgapless
    exact ⟨hname, hdatabase, fun h => ⟨hserver h, hserver' h⟩⟩
  · rintro ⟨hname, hdatabase, hserver⟩
    refine ⟨Nat.le_refl 4, ⟨name, rfl, hname⟩, ?_⟩
    simp only [List.pairwise_cons, List.forall_mem_cons]
    exact ⟨⟨fun h => (hserver h).1, fun h => (hserver h).2, fun _ => hname, nofun⟩,
      ⟨hdatabase, fun _ => hname, nofun⟩, ⟨fun _ => hname, nofun⟩, nofun, .nil⟩

/-- An absent part in front changes nothing while there is room for it. -/
theorem qualifies_cons_none {parts : List (Option String)} (hroom : parts.length < 4) :
    Qualifies (none :: parts) ↔ Qualifies parts := by
  have hblank : BlankPart none := nofun
  constructor
  · rintro ⟨-, ⟨part, hlast, hname⟩, hgapless⟩
    refine ⟨Nat.le_of_lt hroom, ⟨part, ?_, hname⟩, (List.pairwise_cons.mp hgapless).2⟩
    cases parts with
    | nil =>
      obtain rfl := Option.some.inj hlast
      exact absurd hblank hname
    | cons p parts => exact hlast
  · rintro ⟨-, ⟨part, hlast, hname⟩, hgapless⟩
    refine ⟨hroom, ⟨part, ?_, hname⟩,
      List.pairwise_cons.mpr ⟨fun _ _ h => absurd hblank h, hgapless⟩⟩
    cases parts with
    | nil => cases hlast
    | cons p parts => exact hlast

theorem ofParts_cons_none :
    ∀ {parts : List (Option String)}, parts ≠ [] → parts.length < 4 →
      ofParts (none :: parts) = ofParts parts
  | [], hne, _ => absurd rfl hne
  | [_], _, _ => rfl
  | [_, _], _, _ => rfl
  | [_, _, _], _, _ => rfl
  | _ :: _ :: _ :: _ :: _, _, hroom => absurd hroom (by simp)

/-- There is no room for a fifth part. -/
theorem ofParts_of_four_lt :
    ∀ {parts : List (Option String)}, 4 < parts.length →
      ofParts parts = .error (.partCount parts.length)
  | _ :: _ :: _ :: _ :: p :: parts, _ => by simp [ofParts]

theorem ofParts_four_eq_ok_iff {server database schema name : Option String} {i : Identifier} :
    ofParts [server, database, schema, name] = .ok i ↔
      Qualifies [server, database, schema, name] ∧
        i.parts = ([server, database, schema, name].map nonBlank).reduceOption := by
  show ofFields (nonBlank name) (nonBlank schema) (nonBlank database) (nonBlank server) = _ ↔ _
  rw [ofFields_eq_ok_iff not_isBlank_of_mem_nonBlank, qualifies_four_iff]
  simp only [isSome_nonBlank_iff]
  rfl

/-- Parts with room in front of them are padded, by induction on the room. -/
theorem ofParts_eq_ok_iff_of_room {i : Identifier} (room : ℕ) :
    ∀ {parts : List (Option String)}, parts ≠ [] → parts.length + room = 4 →
      (ofParts parts = .ok i ↔ Qualifies parts ∧ i.parts = (parts.map nonBlank).reduceOption) := by
  induction room with
  | zero =>
    intro parts _ hlength
    obtain ⟨v, d, s, n, rfl⟩ := List.length_eq_four.mp hlength
    exact ofParts_four_eq_ok_iff
  | succ room ih =>
    intro parts hne hlength
    have hroom : parts.length < 4 := by omega
    have hpadded := @ih (none :: parts) (List.cons_ne_nil _ _) (by rw [List.length_cons]; omega)
    rw [ofParts_cons_none hne hroom, qualifies_cons_none hroom] at hpadded
    exact hpadded

/-- Parts make a name just where they qualify it, and the name has those that are not blank. -/
theorem ofParts_eq_ok_iff {parts : List (Option String)} {i : Identifier} :
    ofParts parts = .ok i ↔
      Qualifies parts ∧ i.parts.map some = parts.filter (fun part => ¬ BlankPart part) := by
  rw [filter_not_blankPart, (List.map_injective_iff.mpr (Option.some_injective _)).eq_iff]
  by_cases hne : parts = []
  · subst hne
    refine ⟨nofun, ?_⟩
    rintro ⟨⟨-, ⟨part, ⟨⟩, -⟩, -⟩, -⟩
  by_cases hcount : parts.length ≤ 4
  · exact ofParts_eq_ok_iff_of_room (4 - parts.length) hne (by omega)
  · rw [ofParts_of_four_lt (Nat.lt_of_not_le hcount)]
    exact ⟨nofun, fun h => absurd h.1.count hcount⟩

/-- One to four texts are the parts of a name. -/
theorem exists_parts_eq :
    ∀ {texts : List String}, texts ≠ [] → texts.length ≤ 4 → ∃ i : Identifier, i.parts = texts
  | [], hne, _ => absurd rfl hne
  | [n], _, _ => ⟨⟨n, .bare⟩, rfl⟩
  | [s, n], _, _ => ⟨⟨n, .schema s⟩, rfl⟩
  | [d, s, n], _, _ => ⟨⟨n, .database d s⟩, rfl⟩
  | [v, d, s, n], _, _ => ⟨⟨n, .server v d s⟩, rfl⟩
  | _ :: _ :: _ :: _ :: _ :: _, _, h => absurd h (by simp)

theorem exists_ofParts_eq_ok {parts : List (Option String)} (h : Qualifies parts) :
    ∃ i, ofParts parts = .ok i := by
  obtain ⟨part, hlast, hname⟩ := h.localName
  have hmem : part ∈ parts.filter (fun part => ¬ BlankPart part) :=
    List.mem_filter.mpr ⟨List.mem_of_getLast? hlast, by simpa using hname⟩
  rw [filter_not_blankPart] at hmem
  have hne : (parts.map nonBlank).reduceOption ≠ [] := by
    intro hnil
    rw [hnil] at hmem
    cases hmem
  have hcount : (parts.map nonBlank).reduceOption.length ≤ 4 := by
    refine (List.reduceOption_length_le _).trans ?_
    rw [List.length_map]
    exact h.count
  obtain ⟨i, hi⟩ := exists_parts_eq hne hcount
  refine ⟨i, ofParts_eq_ok_iff.mpr ⟨h, ?_⟩⟩
  rw [filter_not_blankPart, hi]

/-- All other parts are refused. -/
theorem exists_ofParts_eq_error_iff {parts : List (Option String)} :
    (∃ fault, ofParts parts = .error fault) ↔ ¬ Qualifies parts := by
  constructor
  · rintro ⟨fault, hfault⟩ h
    obtain ⟨i, hi⟩ := exists_ofParts_eq_ok h
    cases hfault.symm.trans hi
  · intro h
    cases hmade : ofParts parts with
    | error fault => exact ⟨fault, rfl⟩
    | ok i => exact absurd (ofParts_eq_ok_iff.mp hmade).1 h

/-! ### The text of a name -/

theorem parts_ne_nil (i : Identifier) : i.parts ≠ [] :=
  List.append_ne_nil_of_right_ne_nil _ (List.cons_ne_nil _ _)

theorem length_parts_le (i : Identifier) : i.parts.length ≤ 4 := by
  obtain ⟨n, q⟩ := i
  cases q <;> simp [parts, Qualifier.parts]

/-- The points in the text of a name are those between its parts. -/
theorem splitString_text {i : Identifier} (hpoint : ∀ p ∈ i.parts, '.' ∉ p.toList) :
    Text.splitString '.' i.text = i.parts := by
  have hpieces : (['.'].intercalate (i.parts.map String.toList)).splitOn '.' =
      i.parts.map String.toList :=
    List.splitOn_intercalate '.' (by simpa using hpoint) (by simpa using parts_ne_nil i)
  calc Text.splitString '.' i.text
      = ((['.'].intercalate (i.parts.map String.toList)).splitOn '.').map String.ofList := by
        rw [Text.splitString, text, String.toList_intercalate, Text.splitWhere_eq_splitOnP]
        rfl
    _ = i.parts := by
        rw [hpieces, List.map_map]
        simp

/-- A name is made from its own parts. -/
theorem ofParts_parts {i : Identifier} (hblank : ∀ p ∈ i.parts, Text.isBlankString p = false) :
    ofParts (i.parts.map some) = .ok i := by
  have hnot : ∀ part ∈ i.parts.map some, ¬ BlankPart part := by
    simpa [BlankPart] using hblank
  refine ofParts_eq_ok_iff.mpr ⟨⟨?_, ?_, ?_⟩, ?_⟩
  · rw [List.length_map]
    exact length_parts_le i
  · have hlast : (i.parts.map some).getLast? = some (some i.localName) := by
      rw [parts, List.map_append]
      exact List.getLast?_concat
    exact ⟨_, hlast, hnot _ (List.mem_of_getLast? hlast)⟩
  · exact List.pairwise_of_forall_mem_list fun _ _ _ hnarrow _ => hnot _ hnarrow
  · exact (List.filter_eq_self.mpr (by simpa using hnot)).symm

/-- A name whose parts are not blank and have no points is read back from its text. -/
theorem ofParts_splitString_text {i : Identifier}
    (hblank : ∀ p ∈ i.parts, Text.isBlankString p = false)
    (hpoint : ∀ p ∈ i.parts, '.' ∉ p.toList) :
    ofParts ((Text.splitString '.' i.text).map some) = .ok i := by
  rw [splitString_text hpoint, ofParts_parts hblank]

/-- The text of such a name is not empty. -/
theorem text_ne_empty {i : Identifier} (hblank : ∀ p ∈ i.parts, Text.isBlankString p = false)
    (hpoint : ∀ p ∈ i.parts, '.' ∉ p.toList) : i.text ≠ "" := by
  intro hempty
  have hparts : i.parts = [""] := by
    rw [← splitString_text hpoint, hempty]
    rfl
  have hnot : Text.isBlankString "" = false := hblank "" (by rw [hparts]; exact List.mem_cons_self)
  cases hnot

/-- A synonym whose target is the text of a name has this name for its target. -/
theorem readSynonym_of_text {i name : Identifier} {d : Doc}
    (hblank : ∀ p ∈ i.parts, Text.isBlankString p = false)
    (hpoint : ∀ p ∈ i.parts, '.' ∉ p.toList) (hmap : d.isMap = true)
    (htarget : d.get "target" = .text i.text) (hname : readName .synonym "name" d = .ok name) :
    readSynonym d = .ok ⟨name, i⟩ := by
  have hmapping : require d.isMap (.notMapping .synonym d) = .ok () :=
    require_eq_ok_iff.mpr hmap
  have hpresent : require (d.get "target").isPresent (.missingTarget (d.get "name")) = .ok () := by
    rw [require_eq_ok_iff, htarget]
    exact bne_iff_ne.mpr (text_ne_empty hblank hpoint)
  have hwritten : (d.get "target").write = .ok i.text := by
    rw [htarget, Doc.write_text]
  unfold readSynonym
  rw [bind_eq_of_ok hmapping]
  dsimp only
  rw [bind_eq_of_ok hpresent, bind_eq_of_ok hname, bind_eq_of_ok hwritten,
    ofParts_splitString_text hblank hpoint]

/-- **Qualified names.** Parts make a name just where they qualify it, the name has those that are
not blank in their order, and all other parts are refused. So a name is found again by the synonyms
whose target is its text, if no part of it is blank or has points. -/
theorem ofParts_qualifies :
    (∀ parts, (∃ fault, ofParts parts = .error fault) ↔ ¬ Qualifies parts) ∧
      (∀ parts i, ofParts parts = .ok i ↔
        Qualifies parts ∧ i.parts.map some = parts.filter (fun part => ¬ BlankPart part)) ∧
      ∀ i : Identifier, (∀ p ∈ i.parts, Text.isBlankString p = false) →
        (∀ p ∈ i.parts, '.' ∉ p.toList) →
        ofParts ((Text.splitString '.' i.text).map some) = .ok i ∧
          ∀ d name, d.isMap = true → d.get "target" = .text i.text →
            readName .synonym "name" d = .ok name → readSynonym d = .ok ⟨name, i⟩ := by
  refine ⟨fun _ => exists_ofParts_eq_error_iff, fun _ _ => ofParts_eq_ok_iff, ?_⟩
  intro i hblank hpoint
  exact ⟨ofParts_splitString_text hblank hpoint,
    fun _ _ => readSynonym_of_text hblank hpoint⟩

/-- Blank parts in front of a schema are passed over, a gap behind a server is refused, and a
synonym finds a table of another server. -/
theorem ofParts_tickets :
    Qualifies [none, some " \t", some "dbo", some "tickets"] ∧
      ofParts [none, some " \t", some "dbo", some "tickets"] = .ok ⟨"tickets", .schema "dbo"⟩ ∧
      ¬ Qualifies [some "north", none, some "dbo", some "tickets"] ∧
      (∃ fault, ofParts [some "north", none, some "dbo", some "tickets"] = .error fault) ∧
      let tickets : Identifier := ⟨"open tickets", .server "north" "desk" "dbo"⟩
      let synonym : Doc := .map [(.text "name", .text "queue"), (.text "schema", .text "app"),
        (.text "target", .text "north.desk.dbo.open tickets")]
      (∀ p ∈ tickets.parts, Text.isBlankString p = false) ∧
        (∀ p ∈ tickets.parts, '.' ∉ p.toList) ∧
        synonym.isMap = true ∧ synonym.get "target" = .text tickets.text ∧
        readName .synonym "name" synonym = .ok ⟨"queue", .schema "app"⟩ ∧
        readSynonym synonym = .ok ⟨⟨"queue", .schema "app"⟩, tickets⟩ := by
  obtain ⟨hrefused, hmade, hfound⟩ := ofParts_qualifies
  have hqualifies : Qualifies [none, some " \t", some "dbo", some "tickets"] := by decide +kernel
  have hgap : ¬ Qualifies [some "north", none, some "dbo", some "tickets"] := by decide +kernel
  have hblank : ∀ p ∈ (⟨"open tickets", .server "north" "desk" "dbo"⟩ : Identifier).parts,
      Text.isBlankString p = false := by decide +kernel
  have hpoint : ∀ p ∈ (⟨"open tickets", .server "north" "desk" "dbo"⟩ : Identifier).parts,
      '.' ∉ p.toList := by decide +kernel
  exact ⟨hqualifies, (hmade _ _).mpr ⟨hqualifies, by decide +kernel⟩, hgap, (hrefused _).mpr hgap,
    hblank, hpoint, rfl, rfl, rfl, (hfound _ hblank hpoint).2 _ _ rfl rfl rfl⟩

end SchemaAudit.Identifier
