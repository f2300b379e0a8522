import SchemaAudit.Proofs.Snapshot.Relationships

/-!
# Repeated names

The names of tables are compared with each other, and so are the names of the columns of a table: a
snapshot that repeats one of these is refused, and the fault tells the name. Nothing else is
compared. Views, sequences, synonyms and routines are read one by one, and so are the columns of a
view, so that each of their definitions can stand in an accepted snapshot any number of times.

- `RepeatsTable`, `RepeatsColumn`: what is refused.
- `DrawsObjects`: another snapshot with the same tables, and with other objects that are all defined
  in the first one.
- `names_compared`: what is compared, and what is not.
-/

namespace SchemaAudit.Snapshot

/-! ### Tables -/

/-- The definition `e` gives its table the name of one of the tables before it. -/
def RepeatsTable (before : List Doc) (e : Doc) (name : Identifier) : Prop :=
  ∃ ds, readTables [] before = .ok ds ∧ ∃ d, readTable e = .ok d ∧
    d.table.name = name ∧ name ∈ ds.map (·.table.name)

/-- What comes behind accepted definitions is read with their names in mind. -/
theorem readTables_eq_error {e : Doc} {after : List Doc} {f : Failure} :
    ∀ {before : List Doc} {seen : List Identifier} {ds : List Draft},
      readTables seen before = .ok ds →
      readTables ((ds.map (·.table.name)).reverse ++ seen) (e :: after) = .error f →
        readTables seen (before ++ e :: after) = .error f
  | [], seen, ds, h, hf => by
    obtain rfl := Except.ok.inj h
    exact hf
  | b :: before, seen, ds, h, hf => by
    obtain ⟨d, hd, h⟩ := bind_eq_ok_iff.mp h
    obtain ⟨u, hnew, h⟩ := bind_eq_ok_iff.mp h
    obtain ⟨rest, hrest, h⟩ := bind_eq_ok_iff.mp h
    obtain rfl := Except.ok.inj h
    have hrefused : readTables (d.table.name :: seen) (before ++ e :: after) = .error f := by
      refine readTables_eq_error hrest ?_
      rw [List.map_cons, List.reverse_cons, List.append_assoc, List.singleton_append] at hf
      exact hf
    rw [List.cons_append, readTables, bind_eq_of_ok hd, bind_eq_of_ok hnew]
    exact bind_eq_of_error hrefused

/-- A definition that cannot be read is the end of reading. -/
theorem readTables_of_readTable_error {before after : List Doc} {e : Doc} {f : Failure}
    (hbefore : Accepted (readTables [] before)) (he : readTable e = .error f) :
    readTables [] (before ++ e :: after) = .error f := by
  obtain ⟨ds, hds⟩ := hbefore
  refine readTables_eq_error hds ?_
  rw [readTables]
  exact bind_eq_of_error he

theorem RepeatsTable.readTables {before after : List Doc} {e : Doc} {name : Identifier}
    (h : RepeatsTable before e name) :
    readTables [] (before ++ e :: after) = .error (.snapshot (.duplicateTable name)) := by
  obtain ⟨ds, hds, d, hd, rfl, hmem⟩ := h
  refine readTables_eq_error hds ?_
  have hseen : (ds.map (·.table.name)).reverse.contains d.table.name = true := by
    simpa using hmem
  rw [Snapshot.readTables, bind_eq_of_ok hd, List.append_nil, hseen]
  exact bind_eq_of_error rfl

/-! ### Columns of a table -/

/-- The definition `e` of a table can be read up to its columns, and of these all but for their
names: a column has the name of one before it, and no column before that has. -/
def RepeatsColumn (e : Doc) (table : Identifier) (column : String) : Prop :=
  checkFields .table tableFields e = .ok () ∧ readName .table "table" e = .ok table ∧
    ∃ before c after, readList readColumn (e.get "columns") = .ok (before ++ c :: after) ∧
      (before.map (·.name)).Nodup ∧ c.name = column ∧ column ∈ before.map (·.name)

theorem repeatedColumn?_eq_some {c : Column} {after : List Column} :
    ∀ {before : List Column} {seen : List String},
      (before.map (·.name)).Nodup → (∀ b ∈ before, b.name ∉ seen) →
      c.name ∈ before.map (·.name) ∨ c.name ∈ seen →
        repeatedColumn? seen (before ++ c :: after) = some c
  | [], seen, _, _, hc => by
    have hseen : c.name ∈ seen := hc.resolve_left List.not_mem_nil
    rw [List.nil_append, repeatedColumn?, if_pos (List.contains_iff_mem.mpr hseen)]
  | b :: before, seen, hnodup, hnew, hc => by
    obtain ⟨hfirst, hnodup⟩ := List.nodup_cons.mp hnodup
    have hb : ¬ seen.contains b.name = true := fun h =>
      hnew b List.mem_cons_self (List.contains_iff_mem.mp h)
    rw [List.cons_append, repeatedColumn?, if_neg hb]
    refine repeatedColumn?_eq_some hnodup ?_ ?_
    · intro x hx hmem
      rcases List.mem_cons.mp hmem with heq | hmem
      · exact hfirst (List.mem_map.mpr ⟨x, hx, heq⟩)
      · exact hnew x (List.mem_cons_of_mem b hx) hmem
    · rw [List.map_cons, List.mem_cons] at hc
      rw [List.mem_cons]
      grind

theorem RepeatsColumn.readTable {e : Doc} {table : Identifier} {column : String}
    (h : RepeatsColumn e table column) :
    readTable e = .error (.snapshot (.duplicateColumn column table)) := by
  obtain ⟨hfields, hname, before, c, after, hcolumns, hnodup, rfl, hmem⟩ := h
  have hrepeated : repeatedColumn? [] (before ++ c :: after) = some c :=
    repeatedColumn?_eq_some hnodup (fun _ _ => List.not_mem_nil) (.inl hmem)
  have hrefused : readColumns table (e.get "columns") =
      .error (.snapshot (.duplicateColumn c.name table)) := by
    rw [readColumns, bind_eq_of_ok hcolumns, hrepeated]
  rw [Snapshot.readTable, bind_eq_of_ok hfields, bind_eq_of_ok hname]
  exact bind_eq_of_error hrefused

/-- A fault of the tables that shows nothing but names is told as it is. -/
theorem readDatabase_of_readTables_error {d : Doc} {es : List Doc} {f : Failure}
    (hmap : d.isMap = true) (hes : (d.get "tables").parts? = some es)
    (hf : readTables [] es = .error f) : readDatabase d = .error f.told := by
  have hparts : readParts (d.get "tables") = .ok es := by
    rw [readParts, hes]
  rw [readDatabase, readSections, if_pos hmap, bind_eq_of_ok rfl, bind_eq_of_ok hparts,
    bind_eq_of_error hf]
  rfl

/-! ### Other objects -/

/-- The definition `e'` of a view says the same as `e`, but for columns: it has columns of `e`, in
any order and each any number of times. -/
structure RedrawsColumns (e e' : Doc) : Prop where
  map : e'.isMap = true
  fields : ∀ name, name ≠ "columns" → e'.get? name = e.get? name
  columns : ∃ cs cs', (e.get "columns").parts? = some cs ∧ (e'.get "columns").parts? = some cs' ∧
    cs' ⊆ cs

/-- A section of `d'` has definitions from that of `d`, in any order and each any number of
times. -/
def DrawsSection (d d' : Doc) (name : String) : Prop :=
  ∃ es es', (d.get name).parts? = some es ∧ (d'.get name).parts? = some es' ∧ es' ⊆ es

/-- The snapshot `d'` has the tables and the keywords of `d`. Its other objects are defined in `d`,
but for the columns of views. -/
structure DrawsObjects (d d' : Doc) : Prop where
  map : d'.isMap = true
  tables : d'.get "tables" = d.get "tables"
  keywords : d'.get "reserved_keywords" = d.get "reserved_keywords"
  views : ∃ es es', (d.get "views").parts? = some es ∧ (d'.get "views").parts? = some es' ∧
    ∀ e' ∈ es', ∃ e ∈ es, RedrawsColumns e e'
  sequences : DrawsSection d d' "sequences"
  synonyms : DrawsSection d d' "synonyms"
  routines : DrawsSection d d' "routines"

theorem accepted_readList_iff {α : Type} {read : Doc → Except Failure α} {d : Doc} {es : List Doc}
    (hes : d.parts? = some es) : Accepted (readList read d) ↔ ∀ e ∈ es, Accepted (read e) := by
  rw [← accepted_mapM_iff, readList, readParts, hes]
  exact Iff.rfl

/-- A list that is read part by part can be drawn from any number of times. -/
theorem accepted_readList_of_subset {α : Type} {read : Doc → Except Failure α} {d d' : Doc}
    {es es' : List Doc} (h : Accepted (readList read d)) (hes : d.parts? = some es)
    (hes' : d'.parts? = some es') (hsubset : es' ⊆ es) : Accepted (readList read d') := by
  rw [accepted_readList_iff hes] at h
  exact (accepted_readList_iff hes').mpr fun e he => h e (hsubset he)

theorem DrawsSection.accepted {α : Type} {read : Doc → Except Failure α} {d d' : Doc}
    {name : String} (hdraws : DrawsSection d d' name) {as : List α}
    (h : readList read (d.get name) = .ok as) : Accepted (readList read (d'.get name)) := by
  obtain ⟨es, es', hes, hes', hsubset⟩ := hdraws
  exact accepted_readList_of_subset ⟨as, h⟩ hes hes' hsubset

/-- A view is accepted with any columns that are drawn from those of an accepted one. -/
theorem RedrawsColumns.accepted {e e' : Doc} (h : RedrawsColumns e e') {v : View}
    (hv : readView e = .ok v) : Accepted (readView e') := by
  have hget : ∀ name, name ≠ "columns" → e'.get name = e.get name := fun name hne => by
    rw [Doc.get, Doc.get, h.fields name hne]
  simp only [readView, bind_eq_ok_iff, require_eq_ok_iff] at hv
  obtain ⟨-, -, name, hname, columns, hcolumns, -⟩ := hv
  have hname' : readName .view "name" e' = .ok name := by
    rw [← hname, readName, readName, hget "name" (by decide), hget "schema" (by decide)]
  obtain ⟨cs, cs', hcs, hcs', hsubset⟩ := h.columns
  obtain ⟨columns', hcolumns'⟩ := accepted_readList_of_subset ⟨columns, hcolumns⟩ hcs hcs' hsubset
  refine ⟨⟨name, fieldOr e' "definition" (.text ""), columns',
    fieldOr e' "materialized" (.bool false)⟩, ?_⟩
  simp only [readView, bind_eq_ok_iff, require_eq_ok_iff]
  exact ⟨(), h.map, name, hname', columns', hcolumns', rfl⟩

/-- Objects stand in the order of their definitions, one for each and under its name. -/
def NamedInOrder (kind : Definition) (d : Doc) (names : List Identifier) : Prop :=
  ∃ es, d.parts? = some es ∧ List.Forall₂ (fun e name => readName kind "name" e = .ok name) es names

theorem namedInOrder_of_readList {α : Type} {read : Doc → Except Failure α} {kind : Definition}
    {name : α → Identifier} (hread : ∀ e a, read e = .ok a → readName kind "name" e = .ok (name a))
    {d : Doc} {as : List α} (h : readList read d = .ok as) : NamedInOrder kind d (as.map name) := by
  obtain ⟨es, hes, has⟩ := readList_eq_ok_iff.mp h
  exact ⟨es, hes, List.forall₂_map_right_iff.mpr (has.imp hread)⟩

theorem readName_of_readView {e : Doc} {v : View} (h : readView e = .ok v) :
    readName .view "name" e = .ok v.name := by
  simp only [readView, bind_eq_ok_iff, Except.ok.injEq] at h
  obtain ⟨-, -, name, hname, cs, -, rfl⟩ := h
  exact hname

theorem readName_of_readSequence {e : Doc} {s : Sequence} (h : readSequence e = .ok s) :
    readName .sequence "name" e = .ok s.name := by
  simp only [readSequence, bind_eq_ok_iff, Except.ok.injEq] at h
  obtain ⟨-, -, name, hname, _, -, _, -, _, -, _, -, _, -, rfl⟩ := h
  exact hname

theorem readName_of_readSynonym {e : Doc} {s : Synonym} (h : readSynonym e = .ok s) :
    readName .synonym "name" e = .ok s.name := by
  simp only [readSynonym, bind_eq_ok_iff] at h
  obtain ⟨-, -, -, -, name, hname, text, -, h⟩ := h
  split at h
  · obtain rfl := Except.ok.inj h
    exact hname
  · cases h

theorem readName_of_readRoutine {e : Doc} {r : Routine} (h : readRoutine e = .ok r) :
    readName .routine "name" e = .ok r.name := by
  simp only [readRoutine, bind_eq_ok_iff, Except.ok.injEq] at h
  obtain ⟨-, -, name, hname, rfl⟩ := h
  exact hname

/-- All objects but tables stand in the order of their definitions. -/
structure ObjectsInOrder (d : Doc) (db : Database) : Prop where
  views : NamedInOrder .view (d.get "views") (db.views.map (·.name))
  sequences : NamedInOrder .sequence (d.get "sequences") (db.sequences.map (·.name))
  synonyms : NamedInOrder .synonym (d.get "synonyms") (db.synonyms.map (·.name))
  routines : NamedInOrder .routine (d.get "routines") (db.routines.map (·.name))

theorem objectsInOrder_of_readDatabase {d : Doc} {db : Database} (h : readDatabase d = .ok db) :
    ObjectsInOrder d db := by
  obtain ⟨-, -, hviews, hsequences, hsynonyms, hroutines, -⟩ := readDatabase_eq_ok_iff.mp h
  exact {
    views := namedInOrder_of_readList (fun _ _ => readName_of_readView) hviews
    sequences := namedInOrder_of_readList (fun _ _ => readName_of_readSequence) hsequences
    synonyms := namedInOrder_of_readList (fun _ _ => readName_of_readSynonym) hsynonyms
    routines := namedInOrder_of_readList (fun _ _ => readName_of_readRoutine) hroutines }

/-- Objects can be drawn from an accepted snapshot any number of times. -/
theorem readDatabase_of_drawsObjects {d d' : Doc} {db : Database} (h : readDatabase d = .ok db)
    (hdraws : DrawsObjects d d') : ∃ db', readDatabase d' = .ok db' ∧ db'.tables = db.tables := by
  obtain ⟨-, htables, hviews, hsequences, hsynonyms, hroutines, ks, hks, -⟩ :=
    readDatabase_eq_ok_iff.mp h
  obtain ⟨es, es', hes, hes', hredraws⟩ := hdraws.views
  obtain ⟨fs, hfs, hread⟩ := readList_eq_ok_iff.mp hviews
  obtain rfl : es = fs := Option.some.inj (hes.symm.trans hfs)
  have hviews' : Accepted (readList readView (d'.get "views")) := by
    refine (accepted_readList_iff hes').mpr fun e' he' => ?_
    obtain ⟨e, he, hcolumns⟩ := hredraws e' he'
    obtain ⟨v, -, hv⟩ := exists_partner hread e he
    exact hcolumns.accepted hv
  obtain ⟨views, hviews'⟩ := hviews'
  obtain ⟨sequences, hsequences'⟩ := hdraws.sequences.accepted hsequences
  obtain ⟨synonyms, hsynonyms'⟩ := hdraws.synonyms.accepted hsynonyms
  obtain ⟨routines, hroutines'⟩ := hdraws.routines.accepted hroutines
  refine ⟨⟨db.tables, views, sequences, synonyms, routines, Text.distinct ks⟩, ?_, rfl⟩
  rw [readDatabase_eq_ok_iff, hdraws.tables, hdraws.keywords]
  exact ⟨hdraws.map, htables, hviews', hsequences', hsynonyms', hroutines', ks, hks, rfl⟩

/-! ### All names of a snapshot -/

/-- Which names in a snapshot are compared with each other. -/
structure NamesCompared (d : Doc) : Prop where
  /-- Tables, and the columns of a table, have distinct names. -/
  distinct : ∀ db, readDatabase d = .ok db →
    (db.tables.map (·.name)).Nodup ∧ ∀ t ∈ db.tables, (t.columns.map (·.name)).Nodup
  /-- The first table that repeats a name is told. -/
  table : ∀ before e after name, d.isMap = true →
    (d.get "tables").parts? = some (before ++ e :: after) → RepeatsTable before e name →
      readDatabase d = .error (.snapshot (.duplicateTable name))
  /-- The first column of a table that repeats a name is told. -/
  column : ∀ before e after table column, d.isMap = true →
    (d.get "tables").parts? = some (before ++ e :: after) → Accepted (readTables [] before) →
      RepeatsColumn e table column →
        readDatabase d = .error (.snapshot (.duplicateColumn column table))
  /-- The names of other objects are those of their definitions, with all repetitions. -/
  others : ∀ db, readDatabase d = .ok db → ObjectsInOrder d db
  /-- These definitions, and the columns of views, can be repeated. -/
  repeatable : ∀ db d', readDatabase d = .ok db → DrawsObjects d d' →
    ∃ db', readDatabase d' = .ok db' ∧ db'.tables = db.tables

/-- **Which names are compared.** No two tables of an accepted snapshot have the same name, and no
two columns of a table have; a snapshot with such a repetition is refused with a fault that tells
the name. Views, sequences, synonyms, routines and columns of views are not compared at all. -/
theorem names_compared (d : Doc) : NamesCompared d where
  distinct db h := by
    obtain ⟨es, ds, -, hdrafted, htables⟩ := drafted_of_readDatabase h
    rw [htables, List.map_map]
    refine ⟨hdrafted.names, fun t ht => ?_⟩
    obtain ⟨dt, hdt, rfl⟩ := List.mem_map.mp ht
    obtain ⟨e, -, he⟩ := exists_partner hdrafted.read.flip dt hdt
    exact (readTable_wellFormed he).1.names
  table before e after name hmap hes hrepeats := by
    rw [readDatabase_of_readTables_error hmap hes hrepeats.readTables]
    rfl
  column before e after table column hmap hes hbefore hrepeats := by
    have hrefused : readTables [] (before ++ e :: after) =
        .error (.snapshot (.duplicateColumn column table)) :=
      readTables_of_readTable_error hbefore hrepeats.readTable
    rw [readDatabase_of_readTables_error hmap hes hrefused]
    rfl
  others _ h := objectsInOrder_of_readDatabase h
  repeatable _ _ h hdraws := readDatabase_of_drawsObjects h hdraws

/-! ### Lockers -/

/-- A table of lockers with two columns of the same name. -/
def lockers : Doc :=
  .map [(.text "table", .text "locker"),
    (.text "columns", .list [integerColumn "row", integerColumn "row"])]

/-- The column that both definitions of columns stand for. -/
def rowColumn : Column where
  name := "row"
  type := ⟨"int", .integer⟩

/-- The table of persons cannot stand twice, and a table cannot have a column twice. -/
theorem lockers_refused :
    readDatabase (staff [badge, person, lockers, person]) =
        .error (.snapshot (.duplicateColumn "row" (.bare "locker"))) ∧
      readDatabase (staff [badge, person, person, lockers]) =
        .error (.snapshot (.duplicateTable (.bare "person"))) := by
  constructor
  · refine (names_compared _).column [badge, person] lockers [person] _ _ rfl rfl ?_ ?_
    · decide +kernel
    · have hcolumns : readList readColumn (lockers.get "columns") =
          .ok ([rowColumn] ++ rowColumn :: []) := by
        decide +kernel
      exact ⟨by decide +kernel, by decide +kernel, [rowColumn], rowColumn, [], hcolumns, by decide,
        rfl, by decide⟩
  · refine (names_compared _).table [badge, person] person [lockers] _ rfl rfl ?_
    unfold RepeatsTable
    decide +kernel

/-- A snapshot without tables that repeats a view, a column of it, a sequence, a synonym and a
routine. -/
def repeating : Doc :=
  let named (fields : List (Doc × Doc)) : Doc := .map ((.text "name", .text "seat") :: fields)
  let twice (d : Doc) : Doc := .list [d, d]
  .map [(.text "views", twice (named [(.text "columns", twice (integerColumn "row"))])),
    (.text "sequences", twice (named [])),
    (.text "synonyms", twice (named [(.text "target", .text "row")])),
    (.text "routines", twice (named []))]

/-- It is accepted, and no list of names is without repetition. -/
theorem repeating_accepted :
    ∃ db, readDatabase repeating = .ok db ∧
      ¬ (db.views.map (·.name)).Nodup ∧ ¬ (db.sequences.map (·.name)).Nodup ∧
      ¬ (db.synonyms.map (·.name)).Nodup ∧ ¬ (db.routines.map (·.name)).Nodup ∧
      ∀ v ∈ db.views, ¬ (v.columns.map (·.name)).Nodup := by
  decide +kernel

end SchemaAudit.Snapshot
