import SchemaAudit.Lint.Check.Keys
import SchemaAudit.Proofs.Schema.DataType
import SchemaAudit.Proofs.Snapshot.Relationships

/-!
# Columns of different types

A column and the column that it references differ in their types if the definitions of their types
do, in small letters and with single spaces, or if the classes of the types do. Where no class is
given, it is read off the definition, and the second question adds nothing to the first: equal
definitions are of one class. This needs that no line ends between the parentheses of a definition.
Where one does, the parameters are not dropped, and words among them can give the type a class that
the same definition on one line does not have.

- `comparedText`: what is compared of a definition.
- `DefinesColumn`: the definition of a column in a snapshot.
- `TypesCompared`, `types_compared`: which pairs of columns differ in their types.
-/

namespace SchemaAudit

open DataType (ParametersOnLine)

namespace Lint

/-- What is compared of the definition of a type: its words in small letters, with single spaces. -/
def comparedText (definition : String) : String :=
  String.ofList (Text.joinWith [' '] (Text.words (Text.lower definition.toList)))

theorem normalizedType_eq (c : Column) : normalizedType c = comparedText c.type.definition := rfl

/-- Definitions that are equal in the comparison are of one class. -/
theorem classify_eq_of_comparedText {a b : String} (ha : ParametersOnLine a.toList)
    (hb : ParametersOnLine b.toList) (h : comparedText a = comparedText b) :
    DataType.classify a = DataType.classify b := by
  have hwords : Text.joinWith [' '] (Text.words (Text.lower a.toList)) =
      Text.joinWith [' '] (Text.words (Text.lower b.toList)) := by
    simpa [comparedText] using congrArg String.toList h
  refine DataType.classify_eq_of_spaced ha hb ?_
  rw [← Text.spaced_joinWith_words, hwords, Text.spaced_joinWith_words]

theorem mem_mismatches_iff {r : Relationship} {c p : Column} :
    (c, p) ∈ r.mismatches ↔ (c, p) ∈ r.childKey.columns.zip r.parentKey.columns ∧
      (c.type.dataType ≠ p.type.dataType ∨ normalizedType c ≠ normalizedType p) := by
  rw [Relationship.mismatches, List.mem_filter, typesDiffer, Bool.or_eq_true, bne_iff_ne,
    bne_iff_ne]

end Lint

namespace Snapshot

open Lint (comparedText normalizedType)

/-! ### Definitions of columns -/

/-- The definition `e` stands among the columns of a table with the given name, and is that of the
column `c`. -/
def DefinesColumn (d : Doc) (table : Identifier) (c : Column) (e : Doc) : Prop :=
  ∃ ts, (d.get "tables").parts? = some ts ∧ ∃ t ∈ ts, readName .table "table" t = .ok table ∧
    ∃ es, (t.get "columns").parts? = some es ∧ e ∈ es ∧ readColumn e = .ok c

/-- Where the definition of a column gives no class, the class is read off that of the type. -/
theorem dataType_of_readColumn {e : Doc} {c : Column} (h : readColumn e = .ok c)
    (hgiven : (e.get "data_type").isPresent = false) :
    c.type.dataType = DataType.classify c.type.definition := by
  simp only [readColumn, bind_eq_ok_iff, Except.ok.injEq] at h
  obtain ⟨-, -, -, -, -, -, dataType, hdataType, -, -, name, -, definition, hdefinition, -, -,
    rfl⟩ := h
  rw [readDataType, hgiven] at hdataType
  obtain ⟨text, htext, hclass⟩ := bind_eq_ok_iff.mp hdataType
  obtain rfl := Except.ok.inj (hdefinition.symm.trans htext)
  exact (Except.ok.inj hclass).symm

/-- Every column of a linked table has a definition. -/
theorem Drafted.exists_definesColumn {d : Doc} {es : List Doc} {ds : List Draft}
    (h : Drafted es ds) (hes : (d.get "tables").parts? = some es) {dt : Draft} (hdt : dt ∈ ds)
    {c : Column} (hc : c ∈ dt.table.columns) : ∃ e, DefinesColumn d dt.table.name c e := by
  obtain ⟨t, ht, hread⟩ := exists_partner h.read.flip dt hdt
  obtain ⟨cs, hcs, hcolumns⟩ := readTable_columns hread
  obtain ⟨e, he, hce⟩ := exists_partner hcolumns.flip c hc
  exact ⟨e, es, hes, t, ht, (readTable_spec hread).1, cs, hcs, he, hce⟩

/-! ### Pairs of columns -/

/-- Which pairs of columns of a relationship differ in their types. -/
structure TypesCompared (d : Doc) (t : Table) (r : Relationship) (c p : Column) : Prop where
  /-- Both columns are defined in the snapshot. -/
  child : ∃ e, DefinesColumn d t.name c e
  parent : ∃ e, DefinesColumn d r.parentTable p e
  /-- Columns with different definitions differ. -/
  different : comparedText c.type.definition ≠ comparedText p.type.definition →
    (c, p) ∈ r.mismatches
  /-- Where no class is given and parameters stand on one line, no other columns differ. -/
  counted : ∀ e e', DefinesColumn d t.name c e → DefinesColumn d r.parentTable p e' →
    (e.get "data_type").isPresent = false → (e'.get "data_type").isPresent = false →
    ParametersOnLine c.type.definition.toList → ParametersOnLine p.type.definition.toList →
      ((c, p) ∈ r.mismatches ↔
        comparedText c.type.definition ≠ comparedText p.type.definition)

/-- **Comparing types.** Definitions that are equal in small letters and with single spaces are of
one class, if no line ends between their parentheses. So two columns that are linked in an accepted
snapshot, and have such definitions and no class of their own, differ in their types if and only if
their definitions differ. -/
theorem types_compared {d : Doc} {db : Database} (h : readDatabase d = .ok db) :
    (∀ a b : String, ParametersOnLine a.toList → ParametersOnLine b.toList →
      comparedText a = comparedText b → DataType.classify a = DataType.classify b) ∧
    ∀ t ∈ db.tables, ∀ r ∈ t.parentKeys, ∀ c p,
      (c, p) ∈ r.childKey.columns.zip r.parentKey.columns → TypesCompared d t r c p := by
  obtain ⟨es, ds, hes, hdrafted, htables⟩ := drafted_of_readDatabase h
  refine ⟨fun a b => Lint.classify_eq_of_comparedText, ?_⟩
  intro t ht r hr c p hpair
  rw [htables] at ht
  obtain ⟨dt, hdt, rfl⟩ := List.mem_map.mp ht
  have hleads := hdrafted.leadsFrom htables hdt r hr
  obtain ⟨hc, hp⟩ := List.of_mem_zip hpair
  refine ⟨?_, ?_, ?_, ?_⟩
  · exact hdrafted.exists_definesColumn hes hdt (hleads.columns c hc)
  · obtain ⟨q, hq, hparent, hkey⟩ := hleads.parent
    rw [htables] at hq
    obtain ⟨dq, hdq, rfl⟩ := List.mem_map.mp hq
    rw [hparent]
    exact hdrafted.exists_definesColumn hes hdq (hdrafted.keys hdq hkey p hp)
  · intro hne
    exact Lint.mem_mismatches_iff.mpr ⟨hpair, .inr hne⟩
  · intro e e' he he' hgiven hgiven' honLine honLine'
    obtain ⟨_, _, _, _, _, _, _, _, hread⟩ := he
    obtain ⟨_, _, _, _, _, _, _, _, hread'⟩ := he'
    rw [Lint.mem_mismatches_iff, Lint.normalizedType_eq, Lint.normalizedType_eq,
      dataType_of_readColumn hread hgiven, dataType_of_readColumn hread' hgiven']
    constructor
    · rintro ⟨-, hclass | hne⟩
      · exact fun heq => hclass (Lint.classify_eq_of_comparedText honLine honLine' heq)
      · exact hne
    · exact fun hne => ⟨hpair, .inr hne⟩

/-! ### Flights -/

/-- A column with the given type. -/
def typedColumn (name type : String) : Doc :=
  .map [(.text "name", .text name), (.text "type", .text type)]

/-- Tables of routes and of flights, whose plans and starts have the given types. A flight refers to
a route by both. -/
def flights (routePlan flightPlan routeStart flightStart : String) : Doc :=
  staff [
    .map [(.text "table", .text "route"),
      (.text "columns", .list [typedColumn "plan" routePlan, typedColumn "start" routeStart]),
      (.text "primary_key", .list [.text "plan", .text "start"])],
    .map [(.text "table", .text "flight"),
      (.text "columns", .list [typedColumn "plan" flightPlan, typedColumn "start" flightStart]),
      (.text "foreign_keys", .list [.map [
        (.text "columns", .list [.text "plan", .text "start"]),
        (.text "references", .map [(.text "table", .text "route")])]])]]

/-- The starts have the same type, though it is spelled with other letters and broken into lines.
The plans have different types of one class. -/
def respelledFlights : Doc :=
  flights "int" "integer" "timestamp ( 3 ) with\ntime zone" "Timestamp ( 3 )  With Time Zone"

theorem respelledFlights_compared :
    ∃ db, readDatabase respelledFlights = .ok db ∧
      ((∀ a b : String, ParametersOnLine a.toList → ParametersOnLine b.toList →
          comparedText a = comparedText b → DataType.classify a = DataType.classify b) ∧
        ∀ t ∈ db.tables, ∀ r ∈ t.parentKeys, ∀ c p,
          (c, p) ∈ r.childKey.columns.zip r.parentKey.columns →
            TypesCompared respelledFlights t r c p) ∧
      ∃ t ∈ db.tables, ∃ r ∈ t.parentKeys,
        (∀ q ∈ r.childKey.columns.zip r.parentKey.columns,
          ParametersOnLine q.1.type.definition.toList ∧
            ParametersOnLine q.2.type.definition.toList) ∧
        r.mismatches.map (·.1.name) = ["plan"] := by
  have hread : ∃ db, readDatabase respelledFlights = .ok db ∧
      ∃ t ∈ db.tables, ∃ r ∈ t.parentKeys,
        (∀ q ∈ r.childKey.columns.zip r.parentKey.columns,
          ParametersOnLine q.1.type.definition.toList ∧
            ParametersOnLine q.2.type.definition.toList) ∧
        r.mismatches.map (·.1.name) = ["plan"] := by
    decide +kernel
  obtain ⟨db, hdb, hmismatches⟩ := hread
  exact ⟨db, hdb, types_compared hdb, hmismatches⟩

/-- The plans have one definition, which one of the tables breaks into lines between its
parentheses, and still they are counted as a pair of different types. -/
theorem brokenFlights_miscounted :
    ∃ db, readDatabase (flights "enum('interval',\n 'single')" "enum('interval', 'single')"
        "date" "date") = .ok db ∧
      ∃ t ∈ db.tables, ∃ r ∈ t.parentKeys, ∃ q ∈ r.mismatches,
        comparedText q.1.type.definition = comparedText q.2.type.definition := by
  decide +kernel

end Snapshot

end SchemaAudit
