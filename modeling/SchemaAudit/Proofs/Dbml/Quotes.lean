import SchemaAudit.Proofs.Dbml.References

/-!
# Quotes in the lines of indexes

Names are written without the characters that quote names. What is left of these characters in a
line are the brackets and quotes around its options, and so the line can be told apart into names
and options again. The name of an index need not be a text. It can also be a list of texts, and then
the characters are looked for among the texts, so that those inside a longer text stay.

- `quotesIn`: the characters of a line that quote names.
- `NameClean`: no quote is hidden in the name of an index.
- `optionQuotes`: the brackets and quotes around the options of an index.
- `IndexShown`: the line of an index, which has these quotes and no others if and only if the name
  is clean (`indexShown_of_written`).
-/

namespace SchemaAudit.Dbml

/-! ### Quotes in a line -/

/-- The characters of a text that quote names, in their order. -/
def quotesIn (s : String) : List Char :=
  s.toList.filter (quoteChars.contains ·)

@[simp] theorem quotesIn_append (s t : String) : quotesIn (s ++ t) = quotesIn s ++ quotesIn t := by
  rw [quotesIn, String.toList_append, List.filter_append]
  rfl

theorem quotesIn_eq_nil_iff {s : String} :
    quotesIn s = [] ↔ ∀ c ∈ s.toList, quoteChars.contains c = false := by
  simp [quotesIn, List.filter_eq_nil_iff]

@[simp] theorem quotesIn_unquote (name : String) : quotesIn (unquote name) = [] := by
  rw [quotesIn_eq_nil_iff, unquote, String.toList_ofList]
  intro c hc
  simpa using (List.mem_filter.mp hc).2

@[simp] theorem quotesIn_indent : quotesIn indent = [] :=
  rfl

/-- Joined texts have the quotes of each, if what joins them has none. -/
theorem quotesIn_intercalate {sep : String} (hsep : quotesIn sep = []) :
    ∀ ts : List String, quotesIn (String.intercalate sep ts) = ts.flatMap quotesIn
  | [] => rfl
  | [t] => by simp [String.intercalate_singleton]
  | t :: u :: ts => by
    rw [String.intercalate_cons_cons, quotesIn_append, quotesIn_append, hsep,
      quotesIn_intercalate hsep (u :: ts), List.append_nil]
    rfl

theorem flatMap_quotesIn_unquote (names : List String) :
    (names.map unquote).flatMap quotesIn = [] := by
  simp [List.flatMap_eq_nil_iff]

theorem quotesIn_visibleName (i : Identifier) : quotesIn i.visibleName = [] := by
  unfold Identifier.visibleName
  split
  · exact quotesIn_unquote _
  · exact quotesIn_unquote _

/-! ### Names of indexes -/

/-- No text that the name of an index is made of has a quote among other characters. -/
def NameClean (i : Index) : Prop :=
  ∀ parts, i.name.parts? = some parts → ∀ s, Doc.text s ∈ parts →
    quotesIn s = [] ∨ ∃ q ∈ quoteChars, s = String.ofList [q]

theorem nameClean_of_absent {i : Index} (h : i.name.isPresent = false) : NameClean i := by
  intro parts hparts s hs
  rw [Doc.parts?, h] at hparts
  obtain rfl : [] = parts := Option.some.inj hparts
  cases hs

/-- The parts of a text are its characters. -/
theorem nameClean_of_text {i : Index} {s : String} (h : i.name = .text s) : NameClean i := by
  by_cases hpresent : i.name.isPresent = true
  · intro parts hparts t ht
    rw [Doc.parts?, if_pos hpresent, h] at hparts
    obtain rfl := Option.some.inj hparts
    obtain ⟨c, -, hc⟩ := List.mem_map.mp ht
    obtain rfl := Doc.text.inj hc
    by_cases hquote : c ∈ quoteChars
    · exact .inr ⟨c, hquote, rfl⟩
    · refine .inl (quotesIn_eq_nil_iff.mpr fun d hd => ?_)
      rw [String.toList_ofList, List.mem_singleton] at hd
      rw [hd]
      simpa using hquote
  · exact nameClean_of_absent (Bool.eq_false_iff.mpr hpresent)

/-- A text that is one quote. -/
def isQuote (s : String) : Bool :=
  quoteChars.any fun c => s == String.ofList [c]

theorem isQuote_iff {s : String} : isQuote s = true ↔ ∃ q ∈ quoteChars, s = String.ofList [q] := by
  simp only [isQuote, List.any_eq_true, beq_iff_eq]

/-- A written name is what is left of its texts without those that are one quote. -/
theorem unquoteName_eq_ok {name : Doc} {n : String} (h : unquoteName name = .ok n) :
    ∃ texts : List String, name.items? = some (texts.map .text) ∧
      n = String.join (texts.filter (!isQuote ·)) := by
  unfold unquoteName at h
  split at h
  · cases h
  · next parts hparts =>
    obtain ⟨texts, htexts, hn⟩ := bind_eq_ok_iff.mp h
    refine ⟨texts, ?_, (Except.ok.inj hn).symm⟩
    have hpairs : List.Forall₂ (fun p t => p = Doc.text t) parts texts := by
      refine (mapM_eq_ok_iff.mp htexts).imp fun p t hp => ?_
      cases p with
      | text s => exact congrArg Doc.text (Except.ok.inj hp)
      | _ => cases hp
    rwa [hparts, Option.some_inj, ← List.forall₂_eq_eq_eq, List.forall₂_map_right_iff]

theorem quotesIn_join (ts : List String) : quotesIn (String.join ts) = ts.flatMap quotesIn := by
  rw [quotesIn, String.toList_join, List.filter_flatMap]
  rfl

/-- A written name has a quote if one is hidden among other characters. -/
theorem quotesIn_unquoteName {i : Index} {n : String} (hpresent : i.name.isPresent = true)
    (h : unquoteName i.name = .ok n) : quotesIn n = [] ↔ NameClean i := by
  obtain ⟨texts, hitems, rfl⟩ := unquoteName_eq_ok h
  have hparts : i.name.parts? = some (texts.map .text) := by
    rw [Doc.parts?, if_pos hpresent, hitems]
  rw [quotesIn_join, List.flatMap_eq_nil_iff, NameClean, hparts]
  constructor
  · rintro hnone _ ⟨⟩ s hs
    obtain ⟨t, ht, hts⟩ := List.mem_map.mp hs
    obtain rfl := Doc.text.inj hts
    by_cases hquote : isQuote t = true
    · exact .inr (isQuote_iff.mp hquote)
    · exact .inl (hnone t (List.mem_filter.mpr ⟨ht, by simpa using hquote⟩))
  · intro hclean t ht
    -- a text that is kept is not one quote alone
    obtain ⟨ht, hquote⟩ := List.mem_filter.mp ht
    rcases hclean _ rfl t (List.mem_map_of_mem ht) with hnone | halone
    · exact hnone
    · simp [isQuote_iff.mpr halone] at hquote

/-! ### Lines of indexes -/

/-- The quotes that a line has around the options of an index, with the given ones in the name. -/
def optionQuotes (i : Index) (inName : List Char) : List Char :=
  let name := if i.name.isPresent then ['\x27'] ++ inName ++ ['\x27'] else []
  let included := if i.included.isEmpty then [] else ['\x27', '\x27']
  if !i.name.isPresent && !i.unique.isPresent && i.included.isEmpty then []
  else ['['] ++ (name ++ included) ++ [']']

/-- The options of an index, of which the one for its name is given. -/
def indexOptions (i : Index) (name : List String) : List String :=
  name ++ (if i.unique.isPresent then ["unique"] else []) ++ includeOption i

/-- What stands in the line of an index behind its columns. -/
def optionSuffix (options : List String) : String :=
  if options.isEmpty then "" else " " ++ optionList options

theorem indexLine_of_nil {i : Index} (h : i.columns = []) : indexLine i = .ok none := by
  unfold indexLine
  have hnames : i.columnNames.map unquote = [] := by simp [Index.columnNames, h]
  rw [hnames]

theorem indexLine_of_columns {i : Index} (h : i.columns ≠ []) :
    indexLine i = nameOption i >>= fun name => .ok (some (indent ++ indent ++
      indexColumnList (i.columnNames.map unquote) ++ optionSuffix (indexOptions i name))) := by
  have hnames : i.columnNames.map unquote ≠ [] := by simp [Index.columnNames, h]
  unfold indexLine
  split
  · next hnil => exact absurd hnil hnames
  · rfl

theorem quotesIn_indexColumnList (names : List String) :
    quotesIn (indexColumnList names) = names.flatMap quotesIn := by
  unfold indexColumnList
  split
  · next name => simp
  · have hopen : quotesIn "(" = [] := rfl
    have hclose : quotesIn ")" = [] := rfl
    rw [describeColumns, quotesIn_append, quotesIn_append, quotesIn_intercalate rfl, hopen, hclose,
      List.nil_append, List.append_nil]

theorem quotesIn_optionSuffix (options : List String) :
    quotesIn (optionSuffix options) =
      if options.isEmpty then [] else ['['] ++ options.flatMap quotesIn ++ [']'] := by
  unfold optionSuffix
  split
  · rfl
  · have hspace : quotesIn " " = [] := rfl
    have hopen : quotesIn "[" = ['['] := rfl
    have hclose : quotesIn "]" = [']'] := rfl
    rw [optionList, quotesIn_append, quotesIn_append, quotesIn_append, quotesIn_intercalate rfl,
      hspace, hopen, hclose, List.nil_append]

/-- The option for the included columns, and the quotes in it. -/
theorem includeOption_spec (i : Index) :
    (includeOption i = [] ↔ i.included = []) ∧
      (includeOption i).flatMap quotesIn =
        if i.included.isEmpty then [] else ['\x27', '\x27'] := by
  unfold includeOption
  split
  · next hnil =>
    have hincluded : i.included = [] := by simpa [Index.includedNames] using hnil
    simp [hincluded]
  · next names hnames =>
    have hincluded : i.included ≠ [] := by simpa [Index.includedNames] using hnames
    have hword : quotesIn "note: 'include: " = ['\x27'] := rfl
    have hjoined := quotesIn_intercalate (rfl : quotesIn ", " = [])
    have hclose : quotesIn "'" = ['\x27'] := rfl
    simp [hincluded, hword, hjoined, hclose, flatMap_quotesIn_unquote]

/-- The option for a name that can be written, and the quotes in it. -/
theorem nameOption_spec {i : Index} {name : List String} (h : nameOption i = .ok name) :
    ∃ inName, (name = [] ↔ i.name.isPresent = false) ∧
      (name.flatMap quotesIn = if i.name.isPresent then ['\x27'] ++ inName ++ ['\x27'] else []) ∧
      (i.name.isPresent = true → (inName = [] ↔ NameClean i)) := by
  unfold nameOption at h
  split at h
  · next hpresent =>
    obtain ⟨n, hn, hname⟩ := bind_eq_ok_iff.mp h
    obtain rfl := Except.ok.inj hname
    have hword : quotesIn "name: '" = ['\x27'] := rfl
    have hclose : quotesIn "'" = ['\x27'] := rfl
    refine ⟨quotesIn n, by simp [hpresent], ?_, fun _ => quotesIn_unquoteName hpresent hn⟩
    simp [hpresent, hword, hclose, toString]
  · next habsent =>
    obtain rfl := Except.ok.inj h
    exact ⟨[], by simp [habsent], by simp [habsent], fun hpresent => absurd hpresent habsent⟩

theorem indexOptions_isEmpty {i : Index} {name : List String}
    (hname : name = [] ↔ i.name.isPresent = false) :
    (indexOptions i name).isEmpty =
      (!i.name.isPresent && !i.unique.isPresent && i.included.isEmpty) := by
  rw [Bool.eq_iff_iff]
  simp [indexOptions, hname, (includeOption_spec i).1, and_assoc]

theorem quotesIn_indexOptions (i : Index) (name : List String) :
    (indexOptions i name).flatMap quotesIn =
      name.flatMap quotesIn ++ if i.included.isEmpty then [] else ['\x27', '\x27'] := by
  have hunique : (if i.unique.isPresent then ["unique"] else []).flatMap quotesIn = [] := by
    split
    · rfl
    · rfl
  rw [indexOptions, List.flatMap_append, List.flatMap_append, hunique, (includeOption_spec i).2,
    List.append_nil]

/-- The quotes in the line of an index are those around its options, and those that come with its
name. -/
theorem exists_quotesIn_indexLine {i : Index} {line : String} (h : indexLine i = .ok (some line)) :
    ∃ inName, quotesIn line = optionQuotes i inName ∧
      (i.name.isPresent = true → (inName = [] ↔ NameClean i)) := by
  by_cases hcolumns : i.columns = []
  · rw [indexLine_of_nil hcolumns] at h
    cases h
  rw [indexLine_of_columns hcolumns] at h
  obtain ⟨name, hname, hline⟩ := bind_eq_ok_iff.mp h
  obtain rfl := Option.some.inj (Except.ok.inj hline)
  obtain ⟨inName, hempty, hquotes, hclean⟩ := nameOption_spec hname
  refine ⟨inName, ?_, hclean⟩
  rw [quotesIn_append, quotesIn_append, quotesIn_append, quotesIn_indent,
    quotesIn_indexColumnList, flatMap_quotesIn_unquote, quotesIn_optionSuffix,
    indexOptions_isEmpty hempty, quotesIn_indexOptions, hquotes]
  rfl

/-- Quotes in the name are quotes of the line. -/
theorem optionQuotes_eq_iff {i : Index} {inName : List Char} :
    optionQuotes i inName = optionQuotes i [] ↔ (i.name.isPresent = true → inName = []) := by
  cases hpresent : i.name.isPresent with
  | false => simp [optionQuotes, hpresent]
  | true => simp [optionQuotes, hpresent]

theorem quotesIn_indexLine_iff {i : Index} {line : String} (h : indexLine i = .ok (some line)) :
    quotesIn line = optionQuotes i [] ↔ NameClean i := by
  obtain ⟨inName, hquotes, hclean⟩ := exists_quotesIn_indexLine h
  rw [hquotes, optionQuotes_eq_iff]
  cases hpresent : i.name.isPresent with
  | false => exact ⟨fun _ => nameClean_of_absent hpresent, fun _ => nofun⟩
  | true =>
    rw [← hclean hpresent]
    exact ⟨fun h => h rfl, fun h _ => h⟩

/-- What the line of an index in the block of a table shows. The quotes in it are the brackets
around the options and the quotes around a name and around the included columns, unless a quote is
hidden in the name. -/
structure IndexShown (i : Index) (line : String) : Prop where
  written : indexLine i = .ok (some line)
  columns : ∃ options, line =
    indent ++ indent ++ indexColumnList (i.columnNames.map unquote) ++ optionSuffix options
  quotes : quotesIn line = optionQuotes i [] ↔ NameClean i

/-- An index with columns has a line, if its name can be written. -/
theorem exists_indexShown {i : Index} (hcolumns : i.columns ≠ []) {shown : Option String}
    (h : indexLine i = .ok shown) : ∃ line, shown = some line ∧ IndexShown i line := by
  have hwritten := h
  rw [indexLine_of_columns hcolumns] at hwritten
  obtain ⟨name, -, hline⟩ := bind_eq_ok_iff.mp hwritten
  obtain rfl := Except.ok.inj hline
  exact ⟨_, rfl, h, ⟨indexOptions i name, rfl⟩, quotesIn_indexLine_iff h⟩

/-- The lines of indexes are those of the indexes with columns. -/
theorem indexShown_of_written {is : List Index} {shown : List (Option String)}
    (h : List.Forall₂ (fun i line => indexLine i = .ok line) is shown) :
    List.Forall₂ IndexShown (is.filter fun i => !i.columns.isEmpty) (shown.filterMap id) := by
  -- on the lines, of which those of indexes without columns are left out on both sides
  induction h with
  | nil => exact .nil
  | @cons i line is shown hline _ ih =>
    by_cases hcolumns : i.columns = []
    · rw [indexLine_of_nil hcolumns] at hline
      obtain rfl := Except.ok.inj hline
      rwa [List.filter_cons_of_neg (by simp [hcolumns]), List.filterMap_cons_none rfl]
    · obtain ⟨text, rfl, htext⟩ := exists_indexShown hcolumns hline
      rw [List.filter_cons_of_pos (by simp [hcolumns])]
      exact .cons htext ih

end SchemaAudit.Dbml
