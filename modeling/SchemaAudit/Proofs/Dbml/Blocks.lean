import SchemaAudit.Proofs.Dbml.Defaults
import SchemaAudit.Proofs.Dbml.Quotes
import SchemaAudit.Proofs.Text.Spacing

/-!
# The block of a table

The block of a table has a line for each column and, inside, one for each index with columns. Its
lines are read from the outside: the options of a column stand behind the first bracket of its line
and are separated by commas, up to the first quote, which opens the default value.

- `readOptions`, `HasOption`: the options that are read from the line of a column.
- `ColumnShown`: the line of a column, with the mark of the keys that consist of it.
- `IsBlock`, `tableLines_isBlock`: the block of every table that can be written.
-/

namespace SchemaAudit

/-- A key has a single column, which has the name of the given one. -/
def Key.ConsistsOf (k : Key) (c : Column) : Prop :=
  ∃ b, k.columns = [b] ∧ b.name = c.name

theorem Key.consistsOf_iff {k : Key} {c : Column} :
    k.ConsistsOf c ↔ k.columnNames = [c.name] := by
  rw [columnNames, List.map_eq_singleton_iff]
  rfl

/-- Where columns have distinct names, a key of some of them that consists of one has it for its
only column. -/
theorem Key.consistsOf_iff_columns {columns : List Column} (hnames : (columns.map (·.name)).Nodup)
    {k : Key} (hk : k.columns ⊆ columns) {c : Column} (hc : c ∈ columns) :
    k.ConsistsOf c ↔ k.columns = [c] := by
  constructor
  · rintro ⟨b, hb, hname⟩
    have hmem : b ∈ columns := hk (hb ▸ List.mem_singleton_self b)
    rw [hb, eq_of_key_eq hnames hmem hc hname]
  · exact fun h => ⟨c, h, rfl⟩

namespace Dbml

/-! ### Lines of columns -/

/-- The names in the line of a column, before its options. -/
def columnFront (c : Column) : String :=
  indent ++ unquote c.name ++ " " ++ unquote c.type.definition ++ " "

/-- The options that are read from a line: what stands behind its first bracket and before the next
quote, at the commas and without the blanks around. -/
def readOptions (line : List Char) : List (List Char) :=
  let behind := (line.dropWhile (· != '[')).tail
  (Text.splitWhere (· == ',') (behind.takeWhile (!quoteChars.contains ·))).map Text.strip

/-- An option is read from a line. -/
def HasOption (line option : String) : Prop :=
  option.toList ∈ readOptions line.toList

instance (line option : String) : Decidable (HasOption line option) :=
  inferInstanceAs (Decidable (_ ∈ _))

/-- The options of a column up to the first quote among them, which opens the default value. -/
def plainOptions (t : Table) (c : Column) : List String :=
  optionsBeforeDefault t c ++ if c.default.isSome then ["default: "] else []

theorem quotesIn_columnFront (c : Column) : quotesIn (columnFront c) = [] := by
  have hspace : quotesIn " " = [] := rfl
  simp [columnFront, hspace]

theorem columnLine_eq (t : Table) (c : Column) :
    columnLine t c = columnFront c ++ optionList (columnOptions t c) :=
  rfl

theorem lineFront_eq (t : Table) (c : Column) :
    lineFront t c = columnFront c ++ "[" ++ String.intercalate ", " (optionsBeforeDefault t c) :=
  rfl

/-- Behind the plain options of a column the next quote follows at once. -/
theorem exists_columnLine (t : Table) (c : Column) :
    ∃ q rest, quoteChars.contains q = true ∧ columnLine t c =
      columnFront c ++ "[" ++ String.intercalate ", " (plainOptions t c) ++
        String.ofList (q :: rest) := by
  -- the next quote is the bracket that closes the options, or the quote that opens a default value
  cases hdefault : c.default with
  | none =>
    refine ⟨']', [], rfl, ?_⟩
    have hplain : plainOptions t c = optionsBeforeDefault t c := by simp [plainOptions, hdefault]
    rw [columnLine_of_none hdefault, lineFront_eq, hplain]
  | some value =>
    refine ⟨'\x22', value.toList.flatMap escapeQuote ++ ['\x22', ']'], rfl, ?_⟩
    have hplain : String.intercalate ", " (plainOptions t c) =
        String.intercalate ", " (optionsBeforeDefault t c) ++ ", " ++ "default: " := by
      rw [plainOptions, hdefault]
      exact String.intercalate_append_of_ne_nil (List.cons_ne_nil _ _) (List.cons_ne_nil _ _)
    have hvalue : quoteDefault value ++ "]" =
        String.ofList ('\x22' :: (value.toList.flatMap escapeQuote ++ ['\x22', ']'])) := by
      rw [← String.toList_inj, String.toList_append, toList_quoteDefault, String.toList_ofList]
      simp
    rw [columnLine_of_default hdefault, lineFront_eq, hplain, ← hvalue]
    simp only [String.append_assoc]

theorem plainOptions_spec (t : Table) (c : Column) :
    ∀ option ∈ plainOptions t c, quotesIn option = [] ∧ ',' ∉ option.toList := by
  unfold plainOptions optionsBeforeDefault keyMark
  repeat' split
  all_goals decide

/-- From the line of a column its plain options are read. -/
theorem readOptions_columnLine (t : Table) (c : Column) :
    readOptions (columnLine t c).toList =
      (plainOptions t c).map fun option => Text.strip option.toList := by
  obtain ⟨q, rest, hq, hline⟩ := exists_columnLine t c
  have hbracket : ("[" : String).toList = ['['] := rfl
  have hcomma : (", " : String).toList = [',', ' '] := rfl
  -- the bracket is a quote, of which the names in front of it have none
  have hfront : ∀ d ∈ (columnFront c).toList, (d != '[') = true := by
    intro d hd
    have hquote := quotesIn_eq_nil_iff.mp (quotesIn_columnFront c) d hd
    rw [bne_iff_ne]
    rintro rfl
    cases hquote
  have hoptions : ∀ d ∈ (String.intercalate ", " (plainOptions t c)).toList,
      (!quoteChars.contains d) = true := by
    have hnone : quotesIn (String.intercalate ", " (plainOptions t c)) = [] := by
      rw [quotesIn_intercalate rfl, List.flatMap_eq_nil_iff]
      exact fun option hoption => (plainOptions_spec t c option hoption).1
    intro d hd
    rw [quotesIn_eq_nil_iff.mp hnone d hd]
    rfl
  have hblank : Text.isBlank ' ' = true := rfl
  have hne : (plainOptions t c).map String.toList ≠ [] := by
    simp [plainOptions, optionsBeforeDefault]
  have hpieces : ∀ w ∈ (plainOptions t c).map String.toList, ',' ∉ w := by
    rw [List.forall_mem_map]
    exact fun option hoption => (plainOptions_spec t c option hoption).2
  have hbehind : ((columnLine t c).toList.dropWhile (· != '[')).tail =
      (String.intercalate ", " (plainOptions t c)).toList ++ q :: rest := by
    rw [hline, String.toList_append, String.toList_append, String.toList_append, hbracket,
      String.toList_ofList, List.append_assoc, List.append_assoc, List.singleton_append,
      Text.dropWhile_append_cons hfront rfl, List.tail_cons]
  rw [readOptions, hbehind, Text.takeWhile_append_cons hoptions (by rw [hq]; rfl),
    String.toList_intercalate, hcomma,
    Text.strip_splitWhere_intercalate hblank (by decide) hne hpieces, List.map_map]
  rfl

/-- The marks of keys that are read from the line of a column are those it is given. -/
theorem hasOption_columnLine_iff {t : Table} {c : Column} {mark : String}
    (hmark : mark = "primary key" ∨ mark = "unique key") :
    HasOption (columnLine t c) mark ↔ mark ∈ keyMark t c := by
  rw [HasOption, readOptions_columnLine]
  unfold plainOptions optionsBeforeDefault keyMark
  -- what is left to read are lists of fixed texts, one for each choice of options
  rcases hmark with rfl | rfl
  · repeat' split
    all_goals decide
  · repeat' split
    all_goals decide

theorem isSoleColumn_iff {keys : List Key} {c : Column} :
    isSoleColumn keys c = true ↔ ∃ k ∈ keys, k.ConsistsOf c := by
  simp only [isSoleColumn, List.any_eq_true, beq_iff_eq, Key.consistsOf_iff]

/-- The primary key of a table is one of its columns. -/
def IsPrimaryColumn (t : Table) (c : Column) : Prop :=
  ∃ k, t.primaryKey = some k ∧ k.ConsistsOf c

/-- A unique key of a table is one of its columns. -/
def IsUniqueColumn (t : Table) (c : Column) : Prop :=
  ∃ k ∈ t.uniqueKeys, k.ConsistsOf c

theorem isSoleColumn_primaryKey_iff {t : Table} {c : Column} :
    isSoleColumn t.primaryKey.toList c = true ↔ IsPrimaryColumn t c := by
  simp only [isSoleColumn_iff, Option.mem_toList, IsPrimaryColumn]

theorem hasOption_primaryKey_iff {t : Table} {c : Column} :
    HasOption (columnLine t c) "primary key" ↔ IsPrimaryColumn t c := by
  rw [hasOption_columnLine_iff (.inl rfl), ← isSoleColumn_primaryKey_iff, keyMark]
  split
  · next hprimary => simp [hprimary]
  · next hprimary =>
    split
    · simp [hprimary]
    · simp [hprimary]

theorem hasOption_uniqueKey_iff {t : Table} {c : Column} :
    HasOption (columnLine t c) "unique key" ↔ IsUniqueColumn t c ∧ ¬ IsPrimaryColumn t c := by
  rw [hasOption_columnLine_iff (.inr rfl), ← isSoleColumn_primaryKey_iff, IsUniqueColumn,
    ← isSoleColumn_iff, keyMark]
  split
  · next hprimary => simp [hprimary]
  · next hprimary =>
    split
    · next hunique => simp [hprimary, hunique]
    · next hunique => simp [hprimary, hunique]

/-- What is in a default value is no mark. -/
example :
    ¬ HasOption "    seat text [null, default: \"row, primary key, aisle\"]" "primary key" := by
  decide +kernel

/-- Columns with distinct names are not both the primary key. -/
theorem IsPrimaryColumn.name_eq {t : Table} {b c : Column} (hb : IsPrimaryColumn t b)
    (hc : IsPrimaryColumn t c) : b.name = c.name := by
  obtain ⟨k, hk, hkb⟩ := hb
  obtain ⟨l, hl, hlc⟩ := hc
  obtain rfl : k = l := Option.some.inj (hk.symm.trans hl)
  have hnames := (Key.consistsOf_iff.mp hkb).symm.trans (Key.consistsOf_iff.mp hlc)
  exact List.singleton_inj.mp hnames

/-- What the line of a column in the block of a table shows: the names before the first bracket,
and among the options behind it the mark of a key. -/
structure ColumnShown (t : Table) (c : Column) (line : String) : Prop where
  names : quotesIn (columnFront c) = []
  options : ∃ options, line = columnFront c ++ "[" ++ options ++ "]"
  primaryKey : HasOption line "primary key" ↔ IsPrimaryColumn t c
  uniqueKey : HasOption line "unique key" ↔ IsUniqueColumn t c ∧ ¬ IsPrimaryColumn t c

theorem columnShown_columnLine (t : Table) (c : Column) : ColumnShown t c (columnLine t c) := by
  refine ⟨quotesIn_columnFront c, ⟨String.intercalate ", " (columnOptions t c), ?_⟩,
    hasOption_primaryKey_iff, hasOption_uniqueKey_iff⟩
  rw [columnLine_eq, optionList]
  simp only [String.append_assoc]

/-! ### Blocks -/

/-- The line that opens the block of a table. -/
def blockHeader (t : Table) : String :=
  "Table " ++ t.name.visibleName ++ " \x7b"

/-- The line that opens the block of the indexes. -/
def indexesHeader : String :=
  indent ++ "Indexes \x7b"

/-- The block of a table, with the lines of columns and of indexes in it. -/
structure IsBlock (t : Table) (columns indexes lines : List String) : Prop where
  layout : lines = [blockHeader t] ++ columns ++ indexBlock indexes ++ ["\x7d"]
  header : quotesIn (blockHeader t) = []
  columnLines : List.Forall₂ (ColumnShown t) t.columns columns
  indexLines : List.Forall₂ IndexShown (t.indexes.filter fun i => !i.columns.isEmpty) indexes
  indexesOpened : indexesHeader ∈ lines ↔ ∃ i ∈ t.indexes, i.columns ≠ []
  /-- Where columns have distinct names, one of them at most is marked as the primary key. -/
  primaryKey : (t.columns.map (·.name)).Nodup → columns.Pairwise fun line line' =>
    ¬ (HasOption line "primary key" ∧ HasOption line' "primary key")

theorem tableLines_eq_ok {t : Table} {lines : List String} (h : tableLines t = .ok lines) :
    ∃ shown, List.Forall₂ (fun i line => indexLine i = .ok line) t.indexes shown ∧
      lines = [blockHeader t] ++ t.columns.map (columnLine t) ++ indexBlock (shown.filterMap id) ++
        ["\x7d"] := by
  obtain ⟨shown, hshown, hlines⟩ := bind_eq_ok_iff.mp h
  exact ⟨shown, mapM_eq_ok_iff.mp hshown, (Except.ok.inj hlines).symm⟩

theorem quotesIn_blockHeader (t : Table) : quotesIn (blockHeader t) = [] := by
  have hword : quotesIn "Table " = [] := rfl
  have hbrace : quotesIn " \x7b" = [] := rfl
  rw [blockHeader, quotesIn_append, quotesIn_append, quotesIn_visibleName, hword, hbrace]
  rfl

theorem indexesHeader_ne_blockHeader (t : Table) : indexesHeader ≠ blockHeader t := by
  intro h
  -- only one of the lines is indented
  have hfirst := congrArg (·.toList.head?) h
  have hword : ("Table " : String).toList = 'T' :: "able ".toList := rfl
  simp only [blockHeader, String.toList_append, hword, List.cons_append, List.head?_cons] at hfirst
  exact absurd hfirst (by decide)

theorem indexesHeader_ne_columnLine (t : Table) (c : Column) : indexesHeader ≠ columnLine t c := by
  intro h
  -- the line of a column has a bracket
  have hquotes := congrArg quotesIn h
  have hnone : quotesIn indexesHeader = [] := rfl
  have hbracket : quotesIn "[" = ['['] := rfl
  rw [columnLine_eq, optionList, quotesIn_append, quotesIn_append, quotesIn_append, hnone,
    hbracket, quotesIn_columnFront] at hquotes
  cases hquotes

/-- The block of the indexes is opened where there are lines of indexes. -/
theorem indexesHeader_mem_iff {t : Table} {indexes : List String} :
    indexesHeader ∈ [blockHeader t] ++ t.columns.map (columnLine t) ++ indexBlock indexes ++
      ["\x7d"] ↔ indexes ≠ [] := by
  constructor
  · rintro hmem rfl
    have hbrace : indexesHeader ≠ "\x7d" := by decide
    simp only [indexBlock, List.append_nil, List.mem_append, List.mem_singleton, List.mem_map]
      at hmem
    rcases hmem with (hheader | ⟨c, -, hc⟩) | hend
    · exact indexesHeader_ne_blockHeader t hheader
    · exact indexesHeader_ne_columnLine t c hc.symm
    · exact hbrace hend
  · intro hne
    have hblock : indexesHeader ∈ indexBlock indexes := by
      unfold indexBlock
      split
      · exact absurd rfl hne
      · simp [indexesHeader]
    simp only [List.mem_append]
    exact .inl (.inr hblock)

theorem primaryColumns_pairwise {t : Table} (hnames : (t.columns.map (·.name)).Nodup) :
    (t.columns.map (columnLine t)).Pairwise fun line line' =>
      ¬ (HasOption line "primary key" ∧ HasOption line' "primary key") := by
  rw [List.pairwise_map]
  refine (List.pairwise_map.mp hnames).imp fun hne => ?_
  rintro ⟨hb, hc⟩
  exact hne ((hasOption_primaryKey_iff.mp hb).name_eq (hasOption_primaryKey_iff.mp hc))

theorem isBlock_of_tableLines {t : Table} {lines : List String} (h : tableLines t = .ok lines) :
    ∃ columns indexes, IsBlock t columns indexes lines := by
  obtain ⟨shown, hshown, rfl⟩ := tableLines_eq_ok h
  have hindexes := indexShown_of_written hshown
  have hcolumns : List.Forall₂ (ColumnShown t) t.columns (t.columns.map (columnLine t)) := by
    rw [List.forall₂_map_right_iff, List.forall₂_same]
    exact fun c _ => columnShown_columnLine t c
  have hsome : shown.filterMap id ≠ [] ↔ ∃ i ∈ t.indexes, i.columns ≠ [] := by
    rw [← List.length_pos_iff, ← hindexes.length_eq, List.length_pos_iff, ne_eq,
      List.filter_eq_nil_iff]
    simp
  exact ⟨_, _, rfl, quotesIn_blockHeader t, hcolumns, hindexes,
    indexesHeader_mem_iff.trans hsome, primaryColumns_pairwise⟩

/-! ### Names that are texts -/

/-- The names of the indexes of a table are texts where they are given. -/
def IndexNamesAreTexts (t : Table) : Prop :=
  ∀ i ∈ t.indexes, i.name = .null ∨ ∃ s, i.name = .text s

/-- Such names can be written, and no quote is hidden in them. -/
theorem indexesWritable_of_texts {t : Table} (h : IndexNamesAreTexts t) :
    IndexesWritable t ∧ ∀ i ∈ t.indexes, NameClean i := by
  refine ⟨fun i hi _ => ?_, fun i hi => ?_⟩
  · rcases h i hi with hnull | ⟨s, hs⟩
    · exact ⟨[], by rw [hnull]; rfl, nofun⟩
    · unfold NameWritable Doc.parts?
      split
      · refine ⟨_, by rw [hs]; rfl, fun p hp => ?_⟩
        obtain ⟨c, -, hc⟩ := List.mem_map.mp hp
        exact ⟨_, hc.symm⟩
      · exact ⟨[], rfl, nofun⟩
  · rcases h i hi with hnull | ⟨s, hs⟩
    · exact nameClean_of_absent (by rw [hnull]; rfl)
    · exact nameClean_of_text hs

/-- **The block of a table.** A table is written if the names of its indexes can be. Its block has
one line for each column, one for each index with columns and the line that opens the block of
indexes if there is such an index. The first bracket in the line of a column opens the options, and
the marks of keys among them are those of the keys that consist of the column, where the primary key
comes first. The quotes in the header and in the lines of indexes are those around options, except
for the quotes that are hidden in the names of indexes. Names that are texts can be written and hide
none. -/
theorem tableLines_isBlock (t : Table) :
    (Accepted (tableLines t) ↔ IndexesWritable t) ∧
      (∀ lines, tableLines t = .ok lines → ∃ columns indexes, IsBlock t columns indexes lines) ∧
      (IndexNamesAreTexts t → IndexesWritable t ∧ ∀ i ∈ t.indexes, NameClean i) ∧
      ((t.columns.map (·.name)).Nodup → ∀ c ∈ t.columns, ∀ k : Key, k.columns ⊆ t.columns →
        (k.ConsistsOf c ↔ k.columns = [c])) :=
  ⟨accepted_tableLines_iff, fun _ => isBlock_of_tableLines, indexesWritable_of_texts,
    fun hnames _ hc _ hk => Key.consistsOf_iff_columns hnames hk hc⟩

/-! ### Menus -/

/-- A column of the dishes of a menu, one of them by default. -/
def dishColumn : Column where
  name := "[dish]"
  type := ⟨"text", .text⟩
  default := some "[soup]"

/-- A column of prices. -/
def priceColumn : Column where
  name := "price"
  type := ⟨"int", .integer⟩

/-- A key of the menu that consists of one column. -/
def menuKey (kind : KeyKind) (column : Column) : Key where
  name := .null
  kind := kind
  columns := [column]

/-- A menu with an index of the given name, and one without columns. -/
def menu (indexName : Doc) : Table where
  name := .bare "menu"
  columns := [dishColumn, priceColumn]
  primaryKey := some (menuKey .primary dishColumn)
  uniqueKeys := [menuKey .unique priceColumn, menuKey .unique dishColumn]
  indexes := [
    { name := .text "by taste", columns := [] },
    { name := indexName, columns := [⟨"[dish]", .ascending, some dishColumn⟩],
      included := [priceColumn] }]

/-- The snapshot of such a menu. -/
def menus (indexName : Doc) : Doc :=
  Snapshot.staff [.map [(.text "table", .text "menu"),
    (.text "columns", .list [
      .map [(.text "name", .text "[dish]"), (.text "type", .text "text"),
        (.text "default", .text "[soup]")],
      Snapshot.integerColumn "price"]),
    (.text "primary_key", .text "[dish]"),
    (.text "unique_keys", .list [.list [.text "price"], .list [.text "[dish]"]]),
    (.text "indexes", .list [.map [(.text "name", .text "by taste")],
      .map [(.text "name", indexName), (.text "columns", .list [.text "[dish]"]),
        (.text "include", .list [.text "price"])]])]]

/-- The line of the index with columns. -/
def menuIndexLine (name : String) : String :=
  "        dish [name: '" ++ name ++ "', note: 'include: price']"

/-- The block of a menu. -/
def menuLines (indexName : String) : List String :=
  ["Table menu \x7b",
    "    dish text [null, primary key, default: \"[soup]\"]",
    "    price int [null, unique key]",
    "",
    "    Indexes \x7b",
    menuIndexLine indexName,
    "    \x7d",
    "\x7d"]

/-- A name with quotes is written without them. The dishes are a primary key and a unique key, and
marked as the first. -/
theorem menu_isBlock :
    let t := menu (.text "chef's [best]")
    tableLines t = .ok (menuLines "chefs best") ∧
      (∃ columns indexes, IsBlock t columns indexes (menuLines "chefs best")) ∧
      IndexNamesAreTexts t ∧ IndexesWritable t ∧ (∀ i ∈ t.indexes, NameClean i) ∧
      (t.columns.map (·.name)).Nodup ∧ dishColumn ∈ t.columns ∧
      (menuKey .primary dishColumn).columns ⊆ t.columns ∧
      (menuKey .primary dishColumn).ConsistsOf dishColumn := by
  intro t
  have hlines : tableLines t = .ok (menuLines "chefs best") := by decide +kernel
  have htexts : IndexNamesAreTexts t :=
    List.forall_mem_cons.mpr ⟨.inr ⟨_, rfl⟩, List.forall_mem_cons.mpr ⟨.inr ⟨_, rfl⟩, nofun⟩⟩
  have hnames : (t.columns.map (·.name)).Nodup := by decide +kernel
  have hdish : dishColumn ∈ t.columns := List.mem_cons_self
  have hkey : (menuKey .primary dishColumn).columns ⊆ t.columns :=
    List.cons_subset.mpr ⟨hdish, List.nil_subset _⟩
  obtain ⟨-, hblock, hclean, hsole⟩ := tableLines_isBlock t
  obtain ⟨hwritable, hclean⟩ := hclean htexts
  exact ⟨hlines, hblock _ hlines, htexts, hwritable, hclean, hnames, hdish, hkey,
    (hsole hnames dishColumn hdish _ hkey).mpr rfl⟩

/-- An index named by a list of a text with a quote is read from a snapshot, and the quote stands
in its line as if it closed the name. Of a menu with an index named by a number nothing is
written. -/
theorem menu_hidesQuote :
    (∃ db, Snapshot.readDatabase (menus (.list [.text "chef's"])) = .ok db ∧
      ∃ t ∈ db.tables, tableLines t = .ok (menuLines "chef's") ∧
        ∃ i ∈ t.indexes, indexLine i = .ok (some (menuIndexLine "chef's")) ∧
          quotesIn (menuIndexLine "chef's") ≠ optionQuotes i []) ∧
      ∃ db, Snapshot.readDatabase (menus (.int 5)) = .ok db ∧
        ∃ t ∈ db.tables, t.columns ≠ [] ∧ tableLines t = .error .wrongShape := by
  decide +kernel

end Dbml

end SchemaAudit
