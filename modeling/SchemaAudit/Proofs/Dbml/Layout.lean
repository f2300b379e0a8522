import Mathlib.Data.List.Basic
import SchemaAudit.Proofs.Dbml.Writing
import SchemaAudit.Proofs.Text.Spacing

/-!
# How a document is laid out

A document is put together from lines, and blanks are taken from its end. There is a line that
announces the `Ref` lines wherever a table declares a relationship, also where the keys have no
columns and no `Ref` line follows; then it is the trimming that takes the empty line back. The text
of the blocks ends with a brace and is never trimmed, and of the `Ref` lines only the last one can
be, behind the point before the name of the parent column.

- `joinBlocks`: the blocks of the tables, with an empty line between neighbours.
- `HasPair`: some relationship pairs a column of the child with one of the parent.
- `LaidOut`: what the text of some tables is made of.
- `document_layout`: the text of all tables that can be written, and the text of tables without
  relationships that are put behind each other.
-/

namespace SchemaAudit

namespace Dbml

/-! ### Trimming -/

/-- A text without blanks at its end. -/
def trimEnd (s : String) : String :=
  String.ofList (Text.stripEnd s.toList)

/-- A text has no blank at its end. -/
def Trimmed (s : String) : Prop :=
  ∀ c ∈ s.toList.getLast?, Text.isBlank c = false

/-- A text of blanks. -/
def Blank (s : String) : Prop :=
  ∀ c ∈ s.toList, Text.isBlank c = true

theorem trimmed_trimEnd (s : String) : Trimmed (trimEnd s) := by
  rw [Trimmed, trimEnd, String.toList_ofList]
  exact Text.getLast?_stripEnd s.toList

theorem exists_trimEnd (s : String) : ∃ blanks, s = trimEnd s ++ blanks ∧ Blank blanks := by
  obtain ⟨after, hsplit, hafter⟩ := Text.exists_stripEnd s.toList
  refine ⟨String.ofList after, ?_, ?_⟩
  · rw [trimEnd, ← String.ofList_append, ← hsplit, String.ofList_toList]
  · rw [Blank, String.toList_ofList]
    exact hafter

theorem trimEnd_append_blank {s blanks : String} (hs : Trimmed s) (h : Blank blanks) :
    trimEnd (s ++ blanks) = s := by
  rw [trimEnd, String.toList_append, Text.stripEnd_append_blanks hs h, String.ofList_toList]

/-- What stands before a text does not matter, if there is such a text. -/
theorem Trimmed.behind {t : String} (ht : Trimmed t) (hne : t ≠ "") (s : String) :
    Trimmed (s ++ t) := by
  intro c hc
  rw [String.toList_append, List.getLast?_append] at hc
  cases hlast : t.toList.getLast? with
  | none => exact absurd (String.toList_eq_nil_iff.mp (List.getLast?_eq_none_iff.mp hlast)) hne
  | some d =>
    rw [hlast, Option.some_or] at hc
    obtain rfl := Option.some.inj hc
    exact ht d hlast

theorem Trimmed.append {s t : String} (hs : Trimmed s) (ht : Trimmed t) : Trimmed (s ++ t) := by
  by_cases hne : t = ""
  · rwa [hne, String.append_empty]
  · exact ht.behind hne s

theorem trimmed_brace : Trimmed "\x7d" := by
  intro c hc
  obtain rfl : '\x7d' = c := Option.some.inj hc
  decide

theorem trimmed_point : Trimmed "." := by
  intro c hc
  obtain rfl : '.' = c := Option.some.inj hc
  decide

theorem blank_break : Blank "\n" := by
  intro c hc
  obtain rfl : c = '\n' := List.mem_singleton.mp hc
  decide

/-- Trimming does not go beyond a part that ends with something else than a blank. -/
theorem trimEnd_append {s : String} (hs : Trimmed s) (t : String) :
    trimEnd (s ++ t) = s ++ trimEnd t := by
  obtain ⟨blanks, hsplit, hblank⟩ := exists_trimEnd t
  have htrimmed : Trimmed (s ++ trimEnd t) := hs.append (trimmed_trimEnd t)
  calc trimEnd (s ++ t)
    _ = trimEnd (s ++ trimEnd t ++ blanks) := by rw [String.append_assoc, ← hsplit]
    _ = s ++ trimEnd t := trimEnd_append_blank htrimmed hblank

/-! ### Lines and blocks -/

/-- Lines put under each other. -/
def joinLines (lines : List String) : String :=
  String.intercalate "\n" lines

/-- Blocks of lines with an empty line between neighbours. -/
def joinBlocks (blocks : List (List String)) : String :=
  String.intercalate "\n\n" (blocks.map joinLines)

theorem joinLines_append {ls ms : List String} (hl : ls ≠ []) (hm : ms ≠ []) :
    joinLines (ls ++ ms) = joinLines ls ++ "\n" ++ joinLines ms :=
  String.intercalate_append_of_ne_nil hl hm

/-- Behind an empty line other lines follow after two line breaks. -/
theorem joinLines_append_empty {ls ms : List String} (hl : ls ≠ []) (hm : ms ≠ []) :
    joinLines (ls ++ "" :: ms) = joinLines ls ++ "\n\n" ++ joinLines ms := by
  have hcons : joinLines ("" :: ms) = "\n" ++ joinLines ms := by
    rw [joinLines, String.intercalate_cons_of_ne_nil hm, String.empty_append]
    rfl
  have hbreaks : "\n" ++ "\n" = "\n\n" := rfl
  rw [joinLines_append hl (List.cons_ne_nil _ _), hcons, ← hbreaks]
  simp only [String.append_assoc]

theorem joinBlocks_append {as bs : List (List String)} (ha : as ≠ []) (hb : bs ≠ []) :
    joinBlocks (as ++ bs) = joinBlocks as ++ "\n\n" ++ joinBlocks bs := by
  rw [joinBlocks, List.map_append]
  exact String.intercalate_append_of_ne_nil (mt List.map_eq_nil_iff.mp ha)
    (mt List.map_eq_nil_iff.mp hb)

/-- What comes before the last line does not depend on it. -/
theorem exists_joinLines_concat (ls : List String) :
    ∃ front, ∀ l, joinLines (ls ++ [l]) = front ++ l := by
  by_cases h : ls = []
  · refine ⟨"", fun l => ?_⟩
    rw [h, List.nil_append, joinLines, String.intercalate_singleton, String.empty_append]
  · refine ⟨joinLines ls ++ "\n", fun l => ?_⟩
    rw [joinLines_append h (List.cons_ne_nil _ _), joinLines, joinLines,
      String.intercalate_singleton]

theorem intercalate_ne_nil {blocks : List (List String)} (hne : blocks ≠ [])
    (h : ∀ b ∈ blocks, b ≠ []) : List.intercalate [""] blocks ≠ [] := by
  cases blocks with
  | nil => exact absurd rfl hne
  | cons b blocks =>
    have hb : b ≠ [] := h b List.mem_cons_self
    cases blocks with
    | nil => rwa [List.intercalate_singleton]
    | cons c blocks =>
      rw [List.intercalate_cons_cons, List.append_assoc]
      exact fun hnil => hb (List.append_eq_nil_iff.mp hnil).1

/-- The lines of all blocks, with empty lines between them, are the text of the blocks. -/
theorem joinLines_intercalate {blocks : List (List String)} (h : ∀ b ∈ blocks, b ≠ []) :
    joinLines (List.intercalate [""] blocks) = joinBlocks blocks := by
  induction blocks with
  | nil => rfl
  | cons b blocks ih =>
    obtain ⟨hb, hrest⟩ := List.forall_mem_cons.mp h
    -- an empty line follows the first block only where there is a second one
    cases blocks with
    | nil =>
      rw [List.intercalate_singleton, joinBlocks, List.map_singleton, String.intercalate_singleton]
    | cons c blocks =>
      have hlines : List.intercalate [""] (c :: blocks) ≠ [] :=
        intercalate_ne_nil (List.cons_ne_nil _ _) hrest
      have hblocks : joinBlocks (b :: c :: blocks) =
          joinLines b ++ "\n\n" ++ joinBlocks (c :: blocks) := String.intercalate_cons_cons
      rw [List.intercalate_cons_cons, List.append_assoc, List.singleton_append,
        joinLines_append_empty hb hlines, ih hrest, hblocks]

/-! ### Blocks of tables -/

/-- A block ends with a brace on a line of its own. -/
def EndsInBrace (block : List String) : Prop :=
  ∃ lines, block = lines ++ ["\x7d"]

theorem EndsInBrace.ne_nil {block : List String} (h : EndsInBrace block) : block ≠ [] := by
  obtain ⟨lines, rfl⟩ := h
  exact List.append_ne_nil_of_right_ne_nil lines (List.cons_ne_nil _ _)

theorem endsInBrace_of_tableLines {t : Table} {block : List String}
    (h : tableLines t = .ok block) : EndsInBrace block := by
  obtain ⟨indexLines, -, hblock⟩ := bind_eq_ok_iff.mp h
  exact ⟨_, (Except.ok.inj hblock).symm⟩

/-- The text of blocks has no blank at its end. -/
theorem trimmed_joinBlocks {blocks : List (List String)} (h : ∀ b ∈ blocks, EndsInBrace b) :
    Trimmed (joinBlocks blocks) := by
  rcases List.eq_nil_or_concat blocks with rfl | ⟨front, block, rfl⟩
  · exact nofun
  rw [List.concat_eq_append] at h ⊢
  obtain ⟨lines, rfl⟩ := h block (by simp)
  obtain ⟨before, hbefore⟩ := exists_joinLines_concat lines
  have hblock : joinBlocks [lines ++ ["\x7d"]] = before ++ "\x7d" := by
    rw [joinBlocks, List.map_singleton, String.intercalate_singleton, hbefore]
  have hlast : ∀ s : String, Trimmed (s ++ "\x7d") := trimmed_brace.behind (by decide)
  by_cases hnil : front = []
  · rw [hnil, List.nil_append, hblock]
    exact hlast before
  · rw [joinBlocks_append hnil (List.cons_ne_nil _ _), hblock, ← String.append_assoc]
    exact hlast _

/-! ### Reference lines -/

/-- The `Ref` lines of tables, looked up among the known ones. -/
def allReferences (known ts : List Table) : List String :=
  ts.flatMap (referenceLines known)

/-- Some relationship of a table has a column in the child key and one in the parent key. -/
def HasPair (ts : List Table) : Prop :=
  ∃ t ∈ ts, ∃ r ∈ t.parentKeys, r.childKey.columns ≠ [] ∧ r.parentKey.columns ≠ []

theorem hasPair_iff {known ts : List Table} : HasPair ts ↔ allReferences known ts ≠ [] := by
  have hlines : ∀ t r, relationshipLines known t r ≠ [] ↔
      r.childKey.columns ≠ [] ∧ r.parentKey.columns ≠ [] := by
    intro t r
    rw [relationshipLines, ne_eq, List.map_eq_nil_iff, List.zip_eq_nil_iff, not_or]
  constructor
  · rintro ⟨t, ht, r, hr, hpair⟩ hnil
    have hnone := List.flatMap_eq_nil_iff.mp (List.flatMap_eq_nil_iff.mp hnil t ht) r hr
    exact (hlines t.name r).mpr hpair hnone
  · intro hne
    obtain ⟨line, hline⟩ := List.exists_mem_of_ne_nil _ hne
    obtain ⟨t, ht, hline⟩ := List.mem_flatMap.mp hline
    obtain ⟨r, hr, hline⟩ := List.mem_flatMap.mp hline
    exact ⟨t, ht, r, hr, (hlines t.name r).mp (List.ne_nil_of_mem hline)⟩

/-- A line that starts as the `Ref` lines do, and has a name behind a point at its end. -/
def IsReference (ends name line : String) : Prop :=
  line = "Ref: " ++ ends ++ "." ++ name

theorem exists_isReference {known ts : List Table} {line : String}
    (h : line ∈ allReferences known ts) : ∃ ends name, IsReference ends name line := by
  obtain ⟨t, -, ht⟩ := List.mem_flatMap.mp h
  obtain ⟨r, -, hr⟩ := List.mem_flatMap.mp ht
  obtain ⟨pair, -, rfl⟩ := List.mem_map.mp hr
  refine ⟨t.name.visibleName ++ "." ++ unquote pair.1.name ++ " " ++
    (r.cardinality (lastNamed? known r.parentTable)).sign ++ " " ++ r.parentTable.visibleName,
    unquote pair.2.name, ?_⟩
  simp only [IsReference, pairLine, String.append_assoc]
  rfl

/-- There are `Ref` lines only where a table declares a relationship. -/
theorem referenceSection_eq_cons {ts : List Table} (h : HasPair ts) :
    referenceSection ts = "" :: allReferences ts ts := by
  obtain ⟨t, ht, r, hr, -⟩ := h
  have hany : (ts.any fun t => !t.parentKeys.isEmpty) = true := by
    refine List.any_eq_true.mpr ⟨t, ht, ?_⟩
    simp [List.ne_nil_of_mem hr]
  rw [referenceSection, if_pos hany]
  rfl

/-- Without `Ref` lines an empty line is all that there can be behind the blocks, and there are
blocks then. -/
theorem referenceSection_of_not_hasPair {ts : List Table} (h : ¬ HasPair ts) :
    referenceSection ts = [] ∨ ts ≠ [] ∧ referenceSection ts = [""] := by
  have hnil : allReferences ts ts = [] := not_not.mp (mt hasPair_iff.mpr h)
  rw [referenceSection]
  split
  · next hany =>
    obtain ⟨t, ht, -⟩ := List.any_eq_true.mp hany
    exact .inr ⟨List.ne_nil_of_mem ht, congrArg (List.cons "") hnil⟩
  · exact .inl rfl

/-! ### Documents -/

/-- The text of the tables `ts`, whose blocks are `blocks`. The blocks stand in it as they are.
Where some relationship has a pair of columns, the `Ref` lines follow behind an empty line, the last
one of them without the blanks at the end of the column name. -/
structure LaidOut (ts : List Table) (blocks : List (List String)) (text : String) : Prop where
  written : List.Forall₂ (fun t block => tableLines t = .ok block) ts blocks
  alone : ¬ HasPair ts → text = joinBlocks blocks
  references : HasPair ts → ∃ before ends name line blanks,
    allReferences ts ts = before ++ [line ++ blanks] ∧ IsReference ends name line ∧
      Blank blanks ∧ text = joinBlocks blocks ++ "\n\n" ++ joinLines (before ++ [line])
  trimmed : Trimmed text

section Blocks

variable {ts : List Table} {blocks : List (List String)}

theorem endsInBrace_of_mem (h : List.Forall₂ (fun t block => tableLines t = .ok block) ts blocks) :
    ∀ b ∈ blocks, EndsInBrace b := by
  intro b hb
  obtain ⟨t, -, ht⟩ := exists_partner h.flip b hb
  exact endsInBrace_of_tableLines ht

theorem ne_nil_of_written (h : List.Forall₂ (fun t block => tableLines t = .ok block) ts blocks)
    (hne : ts ≠ []) : blocks ≠ [] := by
  rintro rfl
  exact hne (List.forall₂_nil_right_iff.mp h)

/-- The text of tables without a pair of columns. -/
theorem trimEnd_of_not_hasPair (hpair : ¬ HasPair ts)
    (h : List.Forall₂ (fun t block => tableLines t = .ok block) ts blocks) :
    trimEnd (joinLines (List.intercalate [""] blocks ++ referenceSection ts)) =
      joinBlocks blocks := by
  have hbraces := endsInBrace_of_mem h
  have hnonempty := fun b hb => (hbraces b hb).ne_nil
  have htrim : ∀ blanks, Blank blanks → trimEnd (joinBlocks blocks ++ blanks) = joinBlocks blocks :=
    fun _ => trimEnd_append_blank (trimmed_joinBlocks hbraces)
  rcases referenceSection_of_not_hasPair hpair with hsection | ⟨hne, hsection⟩
  · have hnone := htrim "" nofun
    rw [String.append_empty] at hnone
    rw [hsection, List.append_nil, joinLines_intercalate hnonempty, hnone]
  · -- the line break before the announced lines is a blank
    have hlines := intercalate_ne_nil (ne_nil_of_written h hne) hnonempty
    rw [hsection, joinLines_append hlines (List.cons_ne_nil _ _), joinLines_intercalate hnonempty,
      joinLines, String.intercalate_singleton, String.append_empty, htrim "\n" blank_break]

/-- The text of tables with a pair of columns. The column name in the last line is trimmed. -/
theorem trimEnd_of_hasPair (hpair : HasPair ts)
    (h : List.Forall₂ (fun t block => tableLines t = .ok block) ts blocks) :
    ∃ before ends name line blanks,
      allReferences ts ts = before ++ [line ++ blanks] ∧ IsReference ends name line ∧
        Blank blanks ∧
        trimEnd (joinLines (List.intercalate [""] blocks ++ referenceSection ts)) =
          joinBlocks blocks ++ "\n\n" ++ joinLines (before ++ [line]) := by
  have hnonempty := fun b hb => (endsInBrace_of_mem h b hb).ne_nil
  have hreferences : allReferences ts ts ≠ [] := hasPair_iff.mp hpair
  have hjoin : joinLines (List.intercalate [""] blocks ++ referenceSection ts) =
      joinBlocks blocks ++ "\n\n" ++ joinLines (allReferences ts ts) := by
    have hne : ts ≠ [] := by
      obtain ⟨t, ht, -⟩ := hpair
      exact List.ne_nil_of_mem ht
    have hlines := intercalate_ne_nil (ne_nil_of_written h hne) hnonempty
    rw [referenceSection_eq_cons hpair, joinLines_append_empty hlines hreferences,
      joinLines_intercalate hnonempty]
  -- the text ends in the middle of the last line, behind the point before the column name
  obtain hnil | ⟨before, last, hsplit⟩ := List.eq_nil_or_concat (allReferences ts ts)
  · exact absurd hnil hreferences
  rw [List.concat_eq_append] at hsplit
  have hlast : last ∈ allReferences ts ts := by simp [hsplit]
  obtain ⟨ends, name, hline⟩ := exists_isReference hlast
  obtain ⟨blanks, hname, hblank⟩ := exists_trimEnd name
  obtain ⟨front, hfront⟩ := exists_joinLines_concat before
  refine ⟨before, ends, trimEnd name, "Ref: " ++ ends ++ "." ++ trimEnd name, blanks, ?_, rfl,
    hblank, ?_⟩
  · rw [String.append_assoc, ← hname, hsplit, hline]
  · have hpoint : Trimmed (joinBlocks blocks ++ "\n\n" ++ (front ++ ("Ref: " ++ ends)) ++ ".") :=
      trimmed_point.behind (by decide) _
    have htrim := trimEnd_append hpoint name
    rw [hjoin, hsplit, hfront, hfront, hline]
    simpa only [String.append_assoc] using htrim

theorem exists_laidOut (h : List.Forall₂ (fun t block => tableLines t = .ok block) ts blocks) :
    ∃ text, document ts = .ok text ∧ LaidOut ts blocks text := by
  have hdocument : document ts = .ok (trimEnd
      (joinLines (List.intercalate [""] blocks ++ referenceSection ts))) :=
    bind_eq_of_ok (mapM_eq_ok_iff.mpr h)
  exact ⟨_, hdocument, h, fun hpair => trimEnd_of_not_hasPair hpair h,
    fun hpair => trimEnd_of_hasPair hpair h, trimmed_trimEnd _⟩

theorem laidOut_of_document {text : String} (h : document ts = .ok text) :
    ∃ blocks, LaidOut ts blocks text := by
  obtain ⟨blocks, hblocks, -⟩ := bind_eq_ok_iff.mp h
  obtain ⟨text', htext', hlaid⟩ := exists_laidOut (mapM_eq_ok_iff.mp hblocks)
  obtain rfl := Except.ok.inj (h.symm.trans htext')
  exact ⟨blocks, hlaid⟩

/-- Tables without relationships are written one block after the other. -/
theorem document_of_unrelated (hnone : ∀ t ∈ ts, t.parentKeys = []) :
    document ts = ts.mapM tableLines >>= fun blocks => .ok (joinBlocks blocks) := by
  have hpair : ¬ HasPair ts := by
    rintro ⟨t, ht, r, hr, -⟩
    rw [hnone t ht] at hr
    exact absurd hr List.not_mem_nil
  cases hblocks : ts.mapM tableLines with
  | error f => exact bind_eq_of_error hblocks
  | ok blocks =>
    obtain ⟨text, htext, hlaid⟩ := exists_laidOut (mapM_eq_ok_iff.mp hblocks)
    rw [htext, hlaid.alone hpair]
    rfl

end Blocks

theorem document_append {ts us : List Table} (hts : ts ≠ []) (hus : us ≠ [])
    (hnone : ∀ t ∈ ts ++ us, t.parentKeys = []) :
    document (ts ++ us) = (do
      let text ← document ts
      let rest ← document us
      .ok (text ++ "\n\n" ++ rest)) := by
  obtain ⟨hts', hus'⟩ := List.forall_mem_append.mp hnone
  rw [document_of_unrelated hnone, document_of_unrelated hts', document_of_unrelated hus',
    List.mapM_append]
  cases has : ts.mapM tableLines with
  | error f => rfl
  | ok as =>
    cases hbs : us.mapM tableLines with
    | error f => rfl
    | ok bs =>
      have ha := ne_nil_of_written (mapM_eq_ok_iff.mp has) hts
      have hb := ne_nil_of_written (mapM_eq_ok_iff.mp hbs) hus
      exact congrArg Except.ok (joinBlocks_append ha hb)

/-- **How tables are written.** The text of tables is made of their blocks, with an empty line
between neighbours, and behind another empty line of their `Ref` lines, if some relationship has a
pair of columns. Nothing but the blanks at the end of the last `Ref` line is trimmed. Of tables
without relationships, some and then others are written as the text of the first ones, an empty line
and the text of the others. There is a text if the names of the indexes can be written. -/
theorem document_layout (ts : List Table) :
    (Accepted (document ts) ↔ ∀ t ∈ ts, IndexesWritable t) ∧
      (∀ text, document ts = .ok text → ∃ blocks, LaidOut ts blocks text) ∧
      ∀ us : List Table, ts ≠ [] → us ≠ [] → (∀ t ∈ ts ++ us, t.parentKeys = []) →
        document (ts ++ us) = (do
          let text ← document ts
          let rest ← document us
          .ok (text ++ "\n\n" ++ rest)) :=
  ⟨accepted_document_iff, fun _ => laidOut_of_document, fun _ => document_append⟩

/-- A column of texts. -/
def textColumn (name : String) : Column where
  name := name
  type := ⟨"text", .text⟩

/-- A relationship of trips to stops, by the given columns of both. -/
def tripToStop (columns places : List String) : Relationship where
  childTable := .bare "trip"
  childKey := ⟨.null, .foreign, columns.map textColumn, .bool true⟩
  parentTable := .bare "stop"
  parentKey := ⟨.null, .primary, places.map textColumn, .bool true⟩

/-- Trips, with a column for the stop. -/
def trips (keys : List Relationship) : Table where
  name := .bare "trip"
  columns := [textColumn "stop"]
  parentKeys := keys

/-- Stops, with a column whose name ends with a space. -/
def stops : Table where
  name := .bare "stop"
  columns := [textColumn "place "]

/-- The text of the stops and of trips without relationships. -/
def stopsAndTrips : String :=
  String.intercalate "\n" [
    "Table stop \x7b",
    "    place  text [null]",
    "\x7d",
    "",
    "Table trip \x7b",
    "    stop text [null]",
    "\x7d"]

/-- A key without columns announces `Ref` lines that do not come, and the text is that of the
blocks. With a pair of columns there is such a line, and the space at its end is trimmed. -/
theorem trips_layout :
    let silent := [stops, trips [tripToStop [] []]]
    let related := [stops, trips [tripToStop [] [], tripToStop ["stop"] ["place "]]]
    document silent = .ok stopsAndTrips ∧ (∃ blocks, LaidOut silent blocks stopsAndTrips) ∧
      document related = .ok (stopsAndTrips ++ "\n\nRef: trip.stop > stop.place") ∧
      (∃ blocks, LaidOut related blocks (stopsAndTrips ++ "\n\nRef: trip.stop > stop.place")) ∧
      allReferences related related = ["Ref: trip.stop > stop.place "] ∧
      document ([stops] ++ [trips []]) = (do
        let text ← document [stops]
        let rest ← document [trips []]
        .ok (text ++ "\n\n" ++ rest)) ∧
      document ([stops] ++ [trips []]) = .ok stopsAndTrips := by
  intro silent related
  have hsilent : document silent = .ok stopsAndTrips := by decide +kernel
  have hrelated : document related = .ok (stopsAndTrips ++ "\n\nRef: trip.stop > stop.place") := by
    decide +kernel
  have hnone : ∀ t ∈ [stops] ++ [trips []], t.parentKeys = [] := by decide +kernel
  obtain ⟨-, hsilentText, -⟩ := document_layout silent
  obtain ⟨-, hrelatedText, -⟩ := document_layout related
  obtain ⟨-, -, happend⟩ := document_layout [stops]
  exact ⟨hsilent, hsilentText _ hsilent, hrelated, hrelatedText _ hrelated, by decide +kernel,
    happend _ (List.cons_ne_nil _ _) (List.cons_ne_nil _ _) hnone, by decide +kernel⟩

end Dbml

end SchemaAudit
