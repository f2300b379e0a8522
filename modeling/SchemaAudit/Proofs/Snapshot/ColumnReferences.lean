import SchemaAudit.Proofs.Snapshot.Directions
import SchemaAudit.Proofs.Snapshot.WellFormed

/-!
# References to columns, by lists and by expressions

A definition refers to the columns of its table in two ways. Keys, and the included columns of an
index, list values. Each is looked up as it is, so that it has to be a text, and a name to the
letter. The columns of an index have expressions. An expression is made a text from any value, and
its outer blanks are taken away before it is looked up. The names of columns lie between the two:
they are made texts from any value, but keep their outer blanks. So a list does not reach a column
by the number that its name is written as, and an expression does not reach one whose name has outer
blanks.

- `NamesColumn`, `ExpressesColumn`: the column that a value stands for in a list, and as an
  expression.
- `resolveColumns_list_eq_ok_iff`, `linkedTo_iff`: this is what the readers find.
- `agree_iff`: the values for which the two ways lead to the same column.
- `columnReferences`: all of this holds of the columns of every table definition.
-/

namespace SchemaAudit.Snapshot

open Text

/-- A value in a list is the name of a column. -/
def NamesColumn (columns : List Column) (v : Doc) (c : Column) : Prop :=
  c ∈ columns ∧ v = .text c.name

/-- A value can be written, and what is left of its text without outer blanks is the name of a
column. -/
def ExpressesColumn (columns : List Column) (v : Doc) (c : Column) : Prop :=
  c ∈ columns ∧ ∃ s, v.write = .ok s ∧ isBlankString s = false ∧ stripString s = c.name

/-- An index column that gives nothing but an expression. -/
def expressionColumn (v : Doc) : Doc :=
  .map [(.text "expression", v)]

/-- A list of this value alone stands for the column. -/
def ListedAs (columns : List Column) (table : Identifier) (v : Doc) (c : Column) : Prop :=
  ∀ kind, resolveColumns columns kind table (.list [v]) = .ok [c]

/-- An index over the expression alone is linked to the column. -/
def LinkedTo (columns : List Column) (table : Identifier) (v : Doc) (c : Column) : Prop :=
  ∃ i, readIndex columns table (.map [(.text "columns", .list [expressionColumn v])]) = .ok i ∧
    i.columns.map (·.column) = [some c]

/-- If an index column is given by an expression, it is linked to the column that the expression
stands for, and to nothing if there is none. -/
def FollowsExpression (columns : List Column) (d : Doc) (x : IndexColumn) : Prop :=
  ∀ v, d.get? "expression" = some v → ∀ c, x.column = some c ↔ ExpressesColumn columns v c

/-- A value is a text without outer blanks, or stands for no column in either way. -/
def AlikeIn (columns : List Column) (v : Doc) : Prop :=
  (∃ s, v = .text s ∧ isBlankString s = false ∧ Stripped s.toList) ∨
    ∀ c, ¬ NamesColumn columns v c ∧ ¬ ExpressesColumn columns v c

/-- What the references of a table with the given columns lead to. -/
structure ColumnReferences (columns : List Column) (table : Identifier) : Prop where
  /-- A list is resolved if it lists names of columns, and into these columns. -/
  listed : ∀ kind vs cs, resolveColumns columns kind table (.list vs) = .ok cs ↔
    vs ≠ [] ∧ List.Forall₂ (NamesColumn columns) vs cs
  /-- Primary and unique keys are made of the columns that they list. -/
  keys : ∀ kind e k vs, readKey kind columns table e = .ok k →
    (keyMapping e).get "columns" = .list vs → List.Forall₂ (NamesColumn columns) vs k.columns
  /-- So are foreign keys. -/
  foreignKeys : ∀ e f vs, readForeignKey columns table e = .ok f →
    e.get "columns" = .list vs → List.Forall₂ (NamesColumn columns) vs f.columns
  /-- An index includes the columns that it lists. -/
  included : ∀ e i vs, readIndex columns table e = .ok i →
    e.get "include" = .list vs → List.Forall₂ (NamesColumn columns) vs i.included
  /-- The columns of an index that it lists are linked by their expressions. -/
  linked : ∀ e i ds, readIndex columns table e = .ok i → e.get "columns" = .list ds →
    List.Forall₂ (FollowsExpression columns) ds i.columns
  /-- The two ways lead to the same columns for these values, and for no others. -/
  agree : ∀ v, (∀ c, ListedAs columns table v c ↔ LinkedTo columns table v c) ↔ AlikeIn columns v

variable {columns : List Column} {table : Identifier}

/-! ### Lists -/

theorem lookupColumn_eq_ok_iff (hnames : (columns.map (·.name)).Nodup) {kind : Definition}
    {v : Doc} {c : Column} :
    lookupColumn columns kind table v = .ok c ↔ NamesColumn columns v c := by
  constructor
  · exact lookupColumn_eq_ok
  · rintro ⟨hc, rfl⟩
    -- the lookup compares values, and different names are different values
    have hkeys : (columns.map fun c => Doc.text c.name).Nodup := by
      have hmap : columns.map (fun c => Doc.text c.name) = (columns.map (·.name)).map Doc.text := by
        rw [List.map_map]
        rfl
      rw [hmap]
      exact hnames.map fun _ _ => Doc.text.inj
    have hfound : columns.find? (fun d => Doc.text d.name == Doc.text c.name) = some c :=
      (find?_key_eq_some_iff hkeys).mpr ⟨hc, rfl⟩
    have hatom : (Doc.text c.name).isAtom = true := rfl
    rw [lookupColumn, if_pos hatom, hfound]

/-- A list is resolved value by value. -/
theorem resolveColumns_list_eq_ok_iff (hnames : (columns.map (·.name)).Nodup) {kind : Definition}
    {vs : List Doc} {cs : List Column} :
    resolveColumns columns kind table (.list vs) = .ok cs ↔
      vs ≠ [] ∧ List.Forall₂ (NamesColumn columns) vs cs := by
  have hasNames : (Doc.list vs).asNames = .list vs := rfl
  have hpresent : (Doc.list vs).isPresent = true ↔ vs ≠ [] := by
    cases vs with
    | nil => simp [Doc.isPresent]
    | cons v vs => simp [Doc.isPresent]
  have hlookup : (fun v c => lookupColumn columns kind table v = .ok c) = NamesColumn columns := by
    funext v c
    exact propext (lookupColumn_eq_ok_iff hnames)
  simp only [resolveColumns, hasNames, bind_eq_ok_iff, require_eq_ok_iff, hpresent,
    readList_eq_ok_iff, parts?_list, Option.some.injEq, exists_eq_left', hlookup]
  exact exists_const Unit

theorem listedAs_iff (hnames : (columns.map (·.name)).Nodup) {v : Doc} {c : Column} :
    ListedAs columns table v c ↔ NamesColumn columns v c := by
  have hsingle : ∀ kind, resolveColumns columns kind table (.list [v]) = .ok [c] ↔
      NamesColumn columns v c := by
    intro kind
    rw [resolveColumns_list_eq_ok_iff hnames, List.forall₂_cons]
    exact ⟨fun h => h.2.1, fun h => ⟨List.cons_ne_nil v [], h, .nil⟩⟩
  constructor
  · exact fun h => (hsingle .index).mp (h .index)
  · exact fun h kind => (hsingle kind).mpr h

/-! ### Expressions -/

/-- The expression of an index column is the text of its value, without outer blanks. -/
theorem expression_of_readIndexColumn {d v : Doc} {k : String × Direction}
    (hd : d.get? "expression" = some v) (h : readIndexColumn d = .ok k) :
    ∃ s, v.write = .ok s ∧ isBlankString s = false ∧ k.1 = stripString s := by
  cases d with
  | map es =>
    have hfield : fieldOr (.map es) "expression" (.text "") = v := by
      rw [fieldOr, hd]
      rfl
    simp only [readIndexColumn, indexColumnTexts, hfield, bind_eq_ok_iff, require_eq_ok_iff,
      Except.ok.injEq, Bool.not_eq_true'] at h
    obtain ⟨-, ⟨s, hs, word, -, rfl⟩, -, hblank, direction, -, rfl⟩ := h
    exact ⟨s, hs, hblank, rfl⟩
  | _ => cases hd

/-- What can be written, and is not blank, is an expression. -/
theorem readIndexColumn_expressionColumn {v : Doc} {s : String} (hs : v.write = .ok s)
    (hblank : isBlankString s = false) :
    readIndexColumn (expressionColumn v) = .ok (stripString s, .ascending) := by
  have htexts : indexColumnTexts (expressionColumn v) = .ok (s, "asc") := by
    have hfield : fieldOr (expressionColumn v) "expression" (.text "") = v := rfl
    rw [expressionColumn] at hfield ⊢
    rw [indexColumnTexts, hfield, bind_eq_of_ok hs]
    rfl
  have hword : readDirection "asc" = .ok .ascending := by
    decide +kernel
  rw [readIndexColumn_of_texts htexts hblank, hword]
  rfl

/-- An index column that is read is linked by its expression. -/
theorem followsExpression_of_readIndexColumn (hnames : (columns.map (·.name)).Nodup) {d : Doc}
    {k : String × Direction} (h : readIndexColumn d = .ok k) :
    FollowsExpression columns d (linkIndexColumn columns k) := by
  intro v hd c
  obtain ⟨s, hs, hblank, hexpression⟩ := expression_of_readIndexColumn hd h
  have hlinked : (linkIndexColumn columns k).column = some c ↔ c ∈ columns ∧ c.name = k.1 :=
    linkedIn_linkIndexColumn hnames k c
  rw [hlinked, hexpression]
  constructor
  · rintro ⟨hc, hname⟩
    exact ⟨hc, s, hs, hblank, hname.symm⟩
  · rintro ⟨hc, s', hs', -, hname⟩
    obtain rfl := Except.ok.inj (hs.symm.trans hs')
    exact ⟨hc, hname.symm⟩

/-- The columns of an index that lists them are linked one by one. -/
theorem linked_of_readIndex (hnames : (columns.map (·.name)).Nodup) {e : Doc} {i : Index}
    {ds : List Doc} (h : readIndex columns table e = .ok i) (hlist : e.get "columns" = .list ds) :
    List.Forall₂ (FollowsExpression columns) ds i.columns := by
  obtain ⟨-, ⟨parts, keys, hparts, hkeys, hcolumns⟩, -⟩ := readIndex_reads h
  have hds : parts = ds := by
    rw [hlist, readNames_eq_ok_iff] at hparts
    cases ds with
    | nil => exact hparts
    | cons d ds => exact (Option.some.inj hparts).symm
  subst hds
  rw [hcolumns, List.forall₂_map_right_iff]
  exact hkeys.imp fun d k hk => followsExpression_of_readIndexColumn hnames hk

theorem accepted_readIndex_expression {v : Doc} {s : String} (hs : v.write = .ok s)
    (hblank : isBlankString s = false) :
    Accepted (readIndex columns table
      (.map [(.text "columns", .list [expressionColumn v])])) := by
  have hfields : checkFields .index indexFields
      (.map [(.text "columns", .list [expressionColumn v])]) = .ok () := rfl
  have hparts : readNames ((Doc.map [(.text "columns", .list [expressionColumn v])]).get
      "columns") = .ok [expressionColumn v] := rfl
  have hkeys : [expressionColumn v].mapM readIndexColumn = .ok [(stripString s, .ascending)] :=
    mapM_eq_ok_iff.mpr (.cons (readIndexColumn_expressionColumn hs hblank) .nil)
  unfold readIndex
  rw [bind_eq_of_ok hfields, bind_eq_of_ok hparts, bind_eq_of_ok hkeys]
  exact ⟨_, rfl⟩

theorem linkedTo_iff (hnames : (columns.map (·.name)).Nodup) {v : Doc} {c : Column} :
    LinkedTo columns table v c ↔ ExpressesColumn columns v c := by
  -- the index has one column, as the list of its definition
  have hlinked : ∀ {i}, readIndex columns table
      (.map [(.text "columns", .list [expressionColumn v])]) = .ok i →
      ∃ x, i.columns = [x] ∧ ∀ c, x.column = some c ↔ ExpressesColumn columns v c := by
    intro i hi
    obtain ⟨x, xs, hx, hxs, hcolumns⟩ :=
      List.forall₂_cons_left_iff.mp (linked_of_readIndex hnames hi rfl)
    obtain rfl := List.forall₂_nil_left_iff.mp hxs
    exact ⟨x, hcolumns, hx v rfl⟩
  constructor
  · rintro ⟨i, hi, hcolumn⟩
    obtain ⟨x, hcolumns, hx⟩ := hlinked hi
    rw [hcolumns] at hcolumn
    exact (hx c).mp (List.singleton_inj.mp hcolumn)
  · rintro ⟨hc, s, hs, hblank, hname⟩
    obtain ⟨i, hi⟩ : Accepted (readIndex columns table _) := accepted_readIndex_expression hs hblank
    obtain ⟨x, hcolumns, hx⟩ := hlinked hi
    have hcolumn : x.column = some c := (hx c).mpr ⟨hc, s, hs, hblank, hname⟩
    exact ⟨i, hi, by rw [hcolumns, List.map_singleton, hcolumn]⟩

/-! ### Both ways -/

/-- In a text without outer blanks nothing is to be taken away. -/
theorem namesColumn_iff_expressesColumn {s : String} (hblank : isBlankString s = false)
    (hstripped : Stripped s.toList) {c : Column} :
    NamesColumn columns (.text s) c ↔ ExpressesColumn columns (.text s) c := by
  have hstrip : stripString s = s := by
    rw [stripString, hstripped.strip_eq, String.ofList_toList]
  constructor
  · rintro ⟨hc, hname⟩
    exact ⟨hc, s, Doc.write_text s, hblank, hstrip.trans (Doc.text.inj hname)⟩
  · rintro ⟨hc, s', hs', -, hname⟩
    obtain rfl : s = s' := Except.ok.inj hs'
    exact ⟨hc, congrArg Doc.text (hstrip.symm.trans hname)⟩

theorem agree_iff {v : Doc} :
    (∀ c, NamesColumn columns v c ↔ ExpressesColumn columns v c) ↔ AlikeIn columns v := by
  constructor
  · intro h
    by_cases hsome : ∃ c, NamesColumn columns v c
    · -- the value is a name, and what is left of it without outer blanks is the same name
      obtain ⟨c, hnamed⟩ := hsome
      obtain ⟨-, s, hs, hblank, hstrip⟩ := (h c).mp hnamed
      obtain ⟨-, rfl⟩ := hnamed
      obtain rfl : c.name = s := Except.ok.inj hs
      have hsame : strip c.name.toList = c.name.toList := by
        rw [← String.ofList_inj, String.ofList_toList]
        exact hstrip
      exact .inl ⟨c.name, rfl, hblank, stripped_iff.mpr hsame⟩
    · refine .inr fun c => ⟨fun hnamed => hsome ⟨c, hnamed⟩, fun hexpressed => ?_⟩
      exact hsome ⟨c, (h c).mpr hexpressed⟩
  · rintro (⟨s, rfl, hblank, hstripped⟩ | hnone) c
    · exact namesColumn_iff_expressesColumn hblank hstripped
    · exact iff_of_false (hnone c).1 (hnone c).2

/-- **References to columns.** In every table definition, the values that keys and included columns
list are names of columns to the letter, and index columns are linked to the columns that the texts
of their expressions name without outer blanks. A value leads to the same column in both ways if it
is a text without outer blanks, and otherwise only if it leads to none. -/
theorem columnReferences {d : Doc} (h : readColumns table d = .ok columns) :
    ColumnReferences columns table := by
  obtain ⟨-, hnames⟩ := readColumns_eq_ok_iff.mp h
  have hlisted : ∀ {kind vs cs}, resolveColumns columns kind table (.list vs) = .ok cs ↔
      vs ≠ [] ∧ List.Forall₂ (NamesColumn columns) vs cs :=
    resolveColumns_list_eq_ok_iff hnames
  refine ⟨fun _ _ _ => hlisted, ?_, ?_, ?_, ?_, ?_⟩
  · intro kind e k vs hk hlist
    simp only [readKey, bind_eq_ok_iff, Except.ok.injEq] at hk
    obtain ⟨-, -, cs, hcs, rfl⟩ := hk
    rw [hlist] at hcs
    exact (hlisted.mp hcs).2
  · intro e f vs hf hlist
    obtain ⟨-, -, hcs, -⟩ := readForeignKey_spec hf
    rw [hlist] at hcs
    exact (hlisted.mp hcs).2
  · intro e i vs hi hlist
    obtain ⟨-, -, hincluded⟩ := readIndex_reads hi
    rw [hlist] at hincluded
    cases vs with
    | nil =>
      have hnone : i.included = [] := hincluded
      rw [hnone]
      exact .nil
    | cons v vs => exact (hlisted.mp hincluded).2
  · intro e i ds hi hlist
    exact linked_of_readIndex hnames hi hlist
  · intro v
    rw [← agree_iff]
    simp only [listedAs_iff hnames, linkedTo_iff hnames]

/-- Columns of an archive: a name with outer blanks, a name written as a number, and a plain one. -/
def archiveColumns : Doc :=
  .list [integerColumn " id ", .map [(.text "name", .int 2024), (.text "type", .text "int")],
    integerColumn "note"]

theorem exists_archiveColumns :
    ∃ columns, readColumns (.bare "archive") archiveColumns = .ok columns ∧
      columns.map (·.name) = [" id ", "2024", "note"] := by
  decide +kernel

/-- The plain column of the archive is reached in both ways. -/
theorem archive_references :
    ∃ columns, readColumns (.bare "archive") archiveColumns = .ok columns ∧
      ColumnReferences columns (.bare "archive") ∧
      ∃ c ∈ columns, ListedAs columns (.bare "archive") (.text "note") c ∧
        LinkedTo columns (.bare "archive") (.text "note") c := by
  obtain ⟨columns, hread, hnames⟩ := exists_archiveColumns
  have hreferences := columnReferences hread
  have hnodup : (columns.map (·.name)).Nodup := (readColumns_eq_ok_iff.mp hread).2
  have hmem : "note" ∈ columns.map (·.name) := by
    rw [hnames]
    decide
  obtain ⟨c, hc, hname⟩ := List.mem_map.mp hmem
  have halike : AlikeIn columns (.text "note") :=
    .inl ⟨"note", rfl, by decide +kernel, stripped_iff.mpr (by decide +kernel)⟩
  have hlisted : ListedAs columns (.bare "archive") (.text "note") c :=
    (listedAs_iff hnodup).mpr ⟨hc, congrArg Doc.text hname.symm⟩
  exact ⟨columns, hread, hreferences, c, hc, hlisted,
    ((hreferences.agree _).mpr halike c).mp hlisted⟩

/-- The two ways differ. A list reaches the column whose name has outer blanks, and an expression
does not. An expression reaches the column whose name is written as a number, and the plain one with
blanks around its name, and a list does not. -/
theorem archive_references_differ :
    ∃ columns, readColumns (.bare "archive") archiveColumns = .ok columns ∧
      (∃ c ∈ columns, ListedAs columns (.bare "archive") (.text " id ") c ∧
        ¬ LinkedTo columns (.bare "archive") (.text " id ") c) ∧
      (∃ c ∈ columns, LinkedTo columns (.bare "archive") (.int 2024) c ∧
        ¬ ListedAs columns (.bare "archive") (.int 2024) c) ∧
      ∃ c ∈ columns, LinkedTo columns (.bare "archive") (.text " note ") c ∧
        ¬ ListedAs columns (.bare "archive") (.text " note ") c := by
  obtain ⟨columns, hread, hnames⟩ := exists_archiveColumns
  have hnodup : (columns.map (·.name)).Nodup := (readColumns_eq_ok_iff.mp hread).2
  have hmem : ∀ n ∈ [" id ", "2024", "note"], ∃ c ∈ columns, c.name = n := by
    intro n hn
    rw [← hnames] at hn
    exact List.mem_map.mp hn
  refine ⟨columns, hread, ?_⟩
  simp only [listedAs_iff hnodup, linkedTo_iff hnodup]
  refine ⟨?_, ?_, ?_⟩
  · obtain ⟨c, hc, hname⟩ := hmem " id " (by decide)
    refine ⟨c, hc, ⟨hc, congrArg Doc.text hname.symm⟩, ?_⟩
    rintro ⟨-, s, hs, -, hstrip⟩
    obtain rfl : " id " = s := Except.ok.inj hs
    rw [hname] at hstrip
    exact absurd hstrip (by decide +kernel)
  · obtain ⟨c, hc, hname⟩ := hmem "2024" (by decide)
    have hwritten : (Doc.int 2024).write = .ok "2024" := by decide +kernel
    refine ⟨c, hc, ⟨hc, "2024", hwritten, by decide +kernel, ?_⟩, fun h => nomatch h.2⟩
    rw [hname]
    decide +kernel
  · obtain ⟨c, hc, hname⟩ := hmem "note" (by decide)
    refine ⟨c, hc, ⟨hc, " note ", rfl, by decide +kernel, ?_⟩, ?_⟩
    · rw [hname]
      decide +kernel
    · rintro ⟨-, hnamed⟩
      rw [hname] at hnamed
      exact absurd (Doc.text.inj hnamed) (by decide)

end SchemaAudit.Snapshot
