import Mathlib.Data.List.Basic
import SchemaAudit.Dbml.Table

/-!
# Reading default values back

A column line ends with the default value between double quotes. Who reads the line looks for the
mark of the option, and then takes a backslash together with the character behind it, up to the
first double quote that is not taken in this way. The names before the option have no double quotes,
so the mark is found where the option starts. Double quotes in the value have a backslash before
them, but backslashes have not, so a value with a backslash never comes back: its first backslash is
taken for one that the line has added.

- `readDefault?`: the default value in a line, and what stands behind it.
- `columnLine_of_default`: where the value stands in the line of a column.
- `readDefault?_of_plain`, `eq_of_readDefault?`: the values that come back.
- `column_default_read`: what is read from the line of every column.
-/

namespace SchemaAudit.Dbml

/-! ### Reading a line -/

/-- What stands behind the first occurrence of a mark in a text. -/
def behind? (mark : List Char) : List Char → Option (List Char)
  | [] => mark.isPrefixOf? []
  | c :: cs => (mark.isPrefixOf? (c :: cs)).or (behind? mark cs)

/-- The characters up to the first double quote, and what stands behind it. A backslash makes the
next character one like all others. -/
def readLiteral? : List Char → Option (List Char × List Char)
  | [] => none
  | ['\\'] => none
  | '\\' :: c :: cs => (readLiteral? cs).map fun r => (c :: r.1, r.2)
  | c :: cs =>
    if c = '\x22' then some ([], cs)
    else (readLiteral? cs).map fun r => (c :: r.1, r.2)

/-- The word before a default value. -/
def defaultWord : List Char :=
  ['d', 'e', 'f', 'a', 'u', 'l', 't', ':', ' ']

/-- The default value in the line of a column, and what stands behind it. -/
def readDefault? (line : List Char) : Option (List Char × List Char) :=
  (behind? (defaultWord ++ ['\x22']) line).bind readLiteral?

/-- A line shows the value as the last one of its options. -/
def ReadsBack (line value : String) : Prop :=
  readDefault? line.toList = some (value.toList, [']'])

/-- A character of a default value as it stands in a line. -/
def escapeQuote (c : Char) : List Char :=
  if c = '\x22' then ['\\', '\x22'] else [c]

theorem toList_quoteDefault (value : String) :
    (quoteDefault value).toList = '\x22' :: (value.toList.flatMap escapeQuote ++ ['\x22']) := by
  have hquote : ("\x22" : String).toList = ['\x22'] := rfl
  simp only [quoteDefault, String.toList_append, String.toList_ofList, hquote, List.cons_append]
  rfl

/-! ### The place of the value -/

theorem behind?_of_prefix {mark rest : List Char} : behind? mark (mark ++ rest) = some rest := by
  have hprefix : mark.isPrefixOf? (mark ++ rest) = some rest :=
    List.isPrefixOf?_eq_some_iff_append_eq.mpr rfl
  unfold behind?
  split
  · next hnil => rw [← hnil, hprefix]
  · next c cs hcons => rw [← hcons, hprefix, Option.some_or]

theorem idxOf_quote {front : List Char} (h : '\x22' ∉ front) (rest : List Char) :
    (front ++ ['\x22'] ++ rest).idxOf '\x22' = front.length := by
  rw [List.append_assoc, List.idxOf_append, if_neg h, List.singleton_append, List.idxOf_cons_self,
    Nat.zero_add]

/-- A mark with a double quote at its end, and nowhere else, is found at the first double quote. -/
theorem behind?_append {word before rest : List Char} (hword : '\x22' ∉ word)
    (hbefore : '\x22' ∉ before) :
    behind? (word ++ ['\x22']) (before ++ (word ++ ['\x22'] ++ rest)) = some rest := by
  induction before with
  | nil => exact behind?_of_prefix
  | cons c before ih =>
    have hnone :
        (word ++ ['\x22']).isPrefixOf? (c :: before ++ (word ++ ['\x22'] ++ rest)) = none := by
      rw [Option.eq_none_iff_forall_ne_some]
      intro found hfound
      rw [List.isPrefixOf?_eq_some_iff_append_eq, ← List.append_assoc, ← List.append_assoc]
        at hfound
      -- the first double quote of one side stands further behind than that of the other
      have hplaces := congrArg (List.idxOf '\x22') hfound
      have hfront : '\x22' ∉ c :: before ++ word := fun h =>
        (List.mem_append.mp h).elim hbefore hword
      rw [idxOf_quote hword, idxOf_quote hfront, List.length_append, List.length_cons] at hplaces
      omega
    rw [List.cons_append, behind?, ← List.cons_append, hnone, Option.none_or]
    exact ih fun h => hbefore (List.mem_cons_of_mem c h)

/-- A text without double quotes has no mark with one. -/
theorem behind?_eq_none {word text : List Char} (htext : '\x22' ∉ text) :
    behind? (word ++ ['\x22']) text = none := by
  have hnone : ∀ cs, '\x22' ∉ cs → (word ++ ['\x22']).isPrefixOf? cs = none := by
    intro cs hcs
    rw [Option.eq_none_iff_forall_ne_some]
    intro found hfound
    rw [List.isPrefixOf?_eq_some_iff_append_eq] at hfound
    exact hcs (hfound ▸ by simp)
  induction text with
  | nil => exact hnone [] htext
  | cons c text ih =>
    rw [behind?, hnone _ htext, Option.none_or]
    exact ih fun h => htext (List.mem_cons_of_mem c h)

/-! ### The line of a column -/

theorem quote_notMem_unquote (name : String) : '\x22' ∉ (unquote name).toList := by
  rw [unquote, String.toList_ofList, List.mem_filter]
  rintro ⟨-, h⟩
  exact absurd h (by decide)

/-- The options of a column before its default value. -/
def optionsBeforeDefault (t : Table) (c : Column) : List String :=
  [if c.nullable.isPresent then "null" else "not null"] ++
    (if c.autoIncrement.isSome then ["increment"] else []) ++ keyMark t c

theorem quote_notMem_options (t : Table) (c : Column) :
    '\x22' ∉ (String.intercalate ", " (optionsBeforeDefault t c)).toList := by
  unfold optionsBeforeDefault keyMark
  repeat' split
  all_goals decide

/-- What stands in the line of a column before its default value, or before the last bracket. -/
def lineFront (t : Table) (c : Column) : String :=
  s!"{indent}{unquote c.name} {unquote c.type.definition} " ++ "[" ++
    String.intercalate ", " (optionsBeforeDefault t c)

theorem quote_notMem_lineFront (t : Table) (c : Column) : '\x22' ∉ (lineFront t c).toList := by
  have hindent : '\x22' ∉ indent.toList := by decide
  have hspace : '\x22' ∉ (" " : String).toList := by decide
  have hbracket : '\x22' ∉ ("[" : String).toList := by decide
  simp only [lineFront, toString, String.toList_append, List.mem_append, not_or]
  exact ⟨⟨⟨⟨⟨⟨hindent, quote_notMem_unquote _⟩, hspace⟩, quote_notMem_unquote _⟩, hspace⟩,
    hbracket⟩, quote_notMem_options t c⟩

theorem columnOptions_eq (t : Table) (c : Column) :
    columnOptions t c = optionsBeforeDefault t c ++
      (c.default.map fun value => "default: " ++ quoteDefault value).toList := rfl

theorem columnLine_of_default {t : Table} {c : Column} {value : String}
    (h : c.default = some value) :
    columnLine t c = lineFront t c ++ ", " ++ "default: " ++ quoteDefault value ++ "]" := by
  have hne : optionsBeforeDefault t c ≠ [] := List.cons_ne_nil _ _
  have hoptions : String.intercalate ", " (columnOptions t c) =
      String.intercalate ", " (optionsBeforeDefault t c) ++ ", " ++
        ("default: " ++ quoteDefault value) := by
    rw [columnOptions_eq, h]
    exact String.intercalate_append_of_ne_nil hne (List.cons_ne_nil _ _)
  rw [columnLine, optionList, hoptions, lineFront]
  simp only [String.append_assoc]

theorem columnLine_of_none {t : Table} {c : Column} (h : c.default = none) :
    columnLine t c = lineFront t c ++ "]" := by
  have hoptions : columnOptions t c = optionsBeforeDefault t c := by
    rw [columnOptions_eq, h]
    exact List.append_nil _
  rw [columnLine, optionList, hoptions, lineFront]
  simp only [String.append_assoc]

/-- In the line of a column, the reading starts behind the first quote of its default value. -/
theorem readDefault?_columnLine {t : Table} {c : Column} {value : String}
    (h : c.default = some value) :
    readDefault? (columnLine t c).toList =
      readLiteral? (value.toList.flatMap escapeQuote ++ ['\x22', ']']) := by
  have hfront : '\x22' ∉ (lineFront t c).toList ++ [',', ' '] := by
    rw [List.mem_append, not_or]
    exact ⟨quote_notMem_lineFront t c, by decide⟩
  have hline : (columnLine t c).toList = (lineFront t c).toList ++ [',', ' '] ++
      (defaultWord ++ ['\x22'] ++ (value.toList.flatMap escapeQuote ++ ['\x22', ']'])) := by
    have hcomma : (", " : String).toList = [',', ' '] := rfl
    have hword : ("default: " : String).toList = defaultWord := rfl
    have hbracket : ("]" : String).toList = [']'] := rfl
    rw [columnLine_of_default h]
    simp only [String.toList_append, toList_quoteDefault, hcomma, hword, hbracket,
      List.append_assoc, List.cons_append, List.nil_append]
  rw [readDefault?, hline, behind?_append (by decide) hfront, Option.bind_some]

/-! ### Reading a value -/

theorem readLiteral?_backslash (c : Char) (cs : List Char) :
    readLiteral? ('\\' :: c :: cs) = (readLiteral? cs).map fun r => (c :: r.1, r.2) := by
  rw [readLiteral?]

theorem readLiteral?_quote (cs : List Char) : readLiteral? ('\x22' :: cs) = some ([], cs) := by
  simp [readLiteral?]

theorem readLiteral?_plain {c : Char} (hbackslash : c ≠ '\\') (hquote : c ≠ '\x22')
    (cs : List Char) :
    readLiteral? (c :: cs) = (readLiteral? cs).map fun r => (c :: r.1, r.2) := by
  rw [readLiteral?, if_neg hquote]
  · exact fun h => absurd h hbackslash
  · exact fun _ _ h => absurd h hbackslash

/-- An escaped character other than a backslash is read as itself. -/
theorem readLiteral?_escaped {c : Char} (hc : c ≠ '\\') (cs : List Char) :
    readLiteral? (escapeQuote c ++ cs) = (readLiteral? cs).map fun r => (c :: r.1, r.2) := by
  unfold escapeQuote
  split
  · next hquote =>
    rw [hquote]
    exact readLiteral?_backslash '\x22' cs
  · next hquote => exact readLiteral?_plain hc hquote cs

/-- Up to the first backslash, a value is read as it is. -/
theorem readLiteral?_append {u : List Char} (hu : '\\' ∉ u) (text : List Char) :
    readLiteral? (u.flatMap escapeQuote ++ text) =
      (readLiteral? text).map fun r => (u ++ r.1, r.2) := by
  induction u with
  | nil => simp
  | cons c u ih =>
    obtain ⟨hc, hu⟩ := not_or.mp (mt List.mem_cons.mpr hu)
    rw [List.flatMap_cons, List.append_assoc, readLiteral?_escaped (Ne.symm hc), ih hu,
      Option.map_map]
    rfl

/-- A value without backslashes comes back. -/
theorem readLiteral?_of_plain {v : List Char} (hv : '\\' ∉ v) (rest : List Char) :
    readLiteral? (v.flatMap escapeQuote ++ '\x22' :: rest) = some (v, rest) := by
  rw [readLiteral?_append hv, readLiteral?_quote, Option.map_some, List.append_nil]

/-! ### Values with backslashes

The first backslash of a value decides what becomes of it: at the end it hides the quote that closes
the value, before a double quote it takes the escape of that quote away, and before any other
character it is lost. -/

/-- What stands in a line behind the characters of a default value. -/
def closing : List Char :=
  ['\x22', ']']

theorem flatMap_backslash (u w : List Char) :
    (u ++ '\\' :: w).flatMap escapeQuote =
      u.flatMap escapeQuote ++ '\\' :: w.flatMap escapeQuote := by
  rw [List.flatMap_append, List.flatMap_cons]
  rfl

theorem readLiteral?_of_last {u : List Char} (hu : '\\' ∉ u) :
    readLiteral? ((u ++ ['\\']).flatMap escapeQuote ++ closing) = none := by
  have hrest : readLiteral? ('\\' :: closing) = none := by decide
  rw [flatMap_backslash, List.append_assoc, readLiteral?_append hu, List.flatMap_nil,
    List.singleton_append, hrest, Option.map_none]

theorem readLiteral?_of_escaping {u : List Char} (hu : '\\' ∉ u) (w : List Char) :
    readLiteral? ((u ++ '\\' :: '\x22' :: w).flatMap escapeQuote ++ closing) =
      some (u ++ ['\\'], w.flatMap escapeQuote ++ closing) := by
  have hescaped : ('\x22' :: w).flatMap escapeQuote ++ closing =
      '\\' :: '\x22' :: (w.flatMap escapeQuote ++ closing) := rfl
  rw [flatMap_backslash, List.append_assoc, readLiteral?_append hu, List.cons_append, hescaped,
    readLiteral?_backslash, readLiteral?_quote, Option.map_some, Option.map_some]

theorem readLiteral?_of_dropped {u : List Char} (hu : '\\' ∉ u) {c : Char} (hc : c ≠ '\x22')
    (w : List Char) :
    readLiteral? ((u ++ '\\' :: c :: w).flatMap escapeQuote ++ closing) =
      (readLiteral? (w.flatMap escapeQuote ++ closing)).map fun r => (u ++ c :: r.1, r.2) := by
  have hplain : (c :: w).flatMap escapeQuote ++ closing =
      c :: (w.flatMap escapeQuote ++ closing) := by
    rw [List.flatMap_cons, escapeQuote, if_neg hc]
    rfl
  rw [flatMap_backslash, List.append_assoc, readLiteral?_append hu, List.cons_append, hplain,
    readLiteral?_backslash, Option.map_map]
  rfl

/-- Where the closing quote of a value with a backslash is found, fewer characters are read than the
value has. -/
theorem length_lt_of_backslash {v s : List Char} (hv : '\\' ∈ v)
    (h : readLiteral? (v.flatMap escapeQuote ++ closing) = some (s, [']'])) :
    s.length < v.length := by
  obtain ⟨u, w, rfl, hu⟩ := List.eq_append_cons_of_mem hv
  cases w with
  | nil =>
    rw [readLiteral?_of_last hu] at h
    cases h
  | cons c w =>
    by_cases hc : c = '\x22'
    · rw [hc, readLiteral?_of_escaping hu] at h
      have hrest : (w.flatMap escapeQuote ++ closing).length = 1 :=
        congrArg List.length (Prod.mk.inj (Option.some.inj h)).2
      rw [List.length_append, closing] at hrest
      simp at hrest
    · rw [readLiteral?_of_dropped hu hc, Option.map_eq_some_iff] at h
      obtain ⟨⟨s', rest⟩, hread, heq⟩ := h
      obtain ⟨rfl, rfl⟩ := Prod.mk.inj heq
      have hle : s'.length ≤ w.length := by
        by_cases hw : '\\' ∈ w
        · exact Nat.le_of_lt (length_lt_of_backslash hw hread)
        · rw [closing, readLiteral?_of_plain hw] at hread
          exact Nat.le_of_eq (congrArg List.length (Prod.mk.inj (Option.some.inj hread)).1.symm)
      simp only [List.length_append, List.length_cons]
      omega
termination_by v.length

/-! ### Columns -/

/-- What is read from a line with a default value. -/
structure DefaultRead (line value : String) : Prop where
  /-- The value comes back if there are no backslashes in it, and only then. -/
  readBack : ReadsBack line value ↔ '\\' ∉ value.toList
  /-- A value whose only backslash is its last character is not closed. -/
  last : ∀ u, '\\' ∉ u → value.toList = u ++ ['\\'] → readDefault? line.toList = none
  /-- A first backslash before a double quote ends the value there. -/
  escaping : ∀ u w, '\\' ∉ u → value.toList = u ++ '\\' :: '\x22' :: w →
    readDefault? line.toList = some (u ++ ['\\'], w.flatMap escapeQuote ++ closing)
  /-- A first backslash before another character is lost. -/
  dropped : ∀ u c w, '\\' ∉ u → c ≠ '\x22' → value.toList = u ++ '\\' :: c :: w →
    ∀ s rest, readDefault? line.toList = some (s, rest) → (u ++ [c]) <+: s

/-- **Default values in lines.** The default value of a column can be read back from its line
exactly if it has no backslashes, and where it has some, the first of them decides what is read in
its place. From the line of a column without a default value nothing is read. -/
theorem column_default_read (t : Table) (c : Column) :
    (∀ value, c.default = some value → DefaultRead (columnLine t c) value) ∧
      (c.default = none → readDefault? (columnLine t c).toList = none) := by
  constructor
  · intro value hvalue
    have hread := readDefault?_columnLine (t := t) hvalue
    refine ⟨⟨?_, ?_⟩, ?_, ?_, ?_⟩
    · intro hback hbackslash
      exact absurd (length_lt_of_backslash hbackslash (hread.symm.trans hback)) (Nat.lt_irrefl _)
    · intro hplain
      exact hread.trans (readLiteral?_of_plain hplain [']'])
    · intro u hu hlast
      rw [hread, hlast]
      exact readLiteral?_of_last hu
    · intro u w hu hescaping
      rw [hread, hescaping]
      exact readLiteral?_of_escaping hu w
    · intro u d w hu hd hdropped s rest hs
      rw [hread, hdropped] at hs
      have hmap := (readLiteral?_of_dropped hu hd w).symm.trans hs
      obtain ⟨r, -, heq⟩ := Option.map_eq_some_iff.mp hmap
      obtain ⟨rfl, -⟩ := Prod.mk.inj heq
      exact ⟨r.1, by simp⟩
  · intro hnone
    have hline : '\x22' ∉ (columnLine t c).toList := by
      rw [columnLine_of_none hnone, String.toList_append, List.mem_append, not_or]
      exact ⟨quote_notMem_lineFront t c, by decide⟩
    rw [readDefault?, behind?_eq_none hline, Option.bind_none]

/-! ### Folders -/

/-- A column of folders with a default one. -/
def folderColumn (default : String) : Column where
  name := "[folder]"
  type := ⟨"varchar(80)", .string⟩
  default := some default

/-- A table with such a column as its key. -/
def folders (default : String) : Table where
  name := .bare "folder"
  columns := [folderColumn default]
  primaryKey := some ⟨.null, .primary, [folderColumn default], .bool true⟩

/-- A folder with a slash and quotes comes back. -/
theorem folders_read :
    (folderColumn "/home/\"me\"").default = some "/home/\"me\"" ∧
      DefaultRead (columnLine (folders "/home/\"me\"") (folderColumn "/home/\"me\""))
        "/home/\"me\"" ∧
      ReadsBack (columnLine (folders "/home/\"me\"") (folderColumn "/home/\"me\""))
        "/home/\"me\"" := by
  have hread := (column_default_read (folders "/home/\"me\"") (folderColumn "/home/\"me\"")).1
    "/home/\"me\"" rfl
  exact ⟨rfl, hread, hread.readBack.mpr (by decide)⟩

/-- A folder inside another one comes back without the backslash, and a drive is not closed. -/
theorem folders_lost :
    readDefault? (columnLine (folders "C:\\temp") (folderColumn "C:\\temp")).toList =
        some ("C:temp".toList, [']']) ∧
      ¬ ReadsBack (columnLine (folders "C:\\temp") (folderColumn "C:\\temp")) "C:\\temp" ∧
      readDefault? (columnLine (folders "C:\\") (folderColumn "C:\\")).toList = none ∧
      ¬ ReadsBack (columnLine (folders "C:\\") (folderColumn "C:\\")) "C:\\" := by
  unfold ReadsBack
  decide +kernel

end SchemaAudit.Dbml
