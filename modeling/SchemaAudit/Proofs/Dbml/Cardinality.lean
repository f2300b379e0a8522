import Mathlib.Data.List.Forall2
import Mathlib.Data.Set.Basic
import SchemaAudit.Dbml.Document
import SchemaAudit.Proofs.Schema.ColumnSet

/-!
# Cardinalities of relationships

A relationship is one-to-one if the columns of its child key are, by their names, a candidate key of
the parent table. Here keys and indexes are compared as sets of names, other than in the rules about
indexes, where the order of columns and their directions count. What a candidate consists of can
therefore be rearranged at will, and with more candidates a one-to-one relationship stays one.

- `Key.nameSet`, `Index.nameSet`, `Table.HasCandidate`: the sets of names that are candidates.
- `cardinality_eq_oneToOne_iff`: what makes a relationship one-to-one.
- `Table.SameCandidates`, `Table.AddsCandidates`: tables whose keys and indexes are rearranged, and
  tables with further ones.
- `cardinality_candidates`: the three together.
-/

namespace SchemaAudit

/-! ### Sets of names -/

/-- The name under which an index column is compared: that of the table's column behind it if there
is one, and else the expression. -/
inductive IndexColumn.ComparedAs (c : IndexColumn) : String → Prop where
  | column {column : Column} (h : c.column = some column) : c.ComparedAs column.name
  | expression (h : c.column = none) : c.ComparedAs c.expression

/-- The names of the columns of a key, as a set. -/
def Key.nameSet (k : Key) : Set String :=
  {name | ∃ c ∈ k.columns, c.name = name}

/-- The names of the key columns of an index, as a set. -/
def Index.nameSet (i : Index) : Set String :=
  {name | ∃ c ∈ i.columns, c.ComparedAs name}

/-- A set of names is a candidate of the table: that of its primary key, of a unique key or of a
unique index. -/
inductive Table.HasCandidate (t : Table) : Set String → Prop where
  | primaryKey {k : Key} (h : t.primaryKey = some k) : t.HasCandidate k.nameSet
  | uniqueKey {k : Key} (h : k ∈ t.uniqueKeys) : t.HasCandidate k.nameSet
  | uniqueIndex {i : Index} (h : i ∈ t.indexes) (hunique : i.unique.isPresent = true) :
    t.HasCandidate i.nameSet

theorem IndexColumn.comparedAs_iff {c : IndexColumn} {name : String} :
    c.ComparedAs name ↔ c.columnName = name := by
  unfold columnName
  constructor
  · intro h
    cases h with
    | column h => rw [h]
    | expression h => rw [h]
  · rintro rfl
    cases h : c.column with
    | none => exact .expression h
    | some column => exact .column h

theorem Key.mem_nameSet {k : Key} {name : String} : name ∈ k.nameSet ↔ name ∈ k.columnNames := by
  rw [columnNames, List.mem_map]
  rfl

theorem Index.mem_nameSet {i : Index} {name : String} :
    name ∈ i.nameSet ↔ name ∈ i.columnNames := by
  rw [columnNames, List.mem_map]
  exact exists_congr fun c => and_congr_right fun _ => IndexColumn.comparedAs_iff

theorem Key.nameSet_nonempty {k : Key} : k.nameSet.Nonempty ↔ k.columns ≠ [] := by
  constructor
  · rintro ⟨_, c, hc, -⟩
    exact List.ne_nil_of_mem hc
  · intro h
    obtain ⟨c, hc⟩ := List.exists_mem_of_ne_nil _ h
    exact ⟨c.name, c, hc, rfl⟩

/-- The unique indexes of a table. -/
def Table.uniqueIndexes (t : Table) : List Index :=
  t.indexes.filter (·.unique.isPresent)

theorem Table.hasCandidate_iff_mem {t : Table} {names : Set String} :
    t.HasCandidate names ↔ names ∈ (t.primaryKey.toList ++ t.uniqueKeys).map Key.nameSet ∨
      names ∈ t.uniqueIndexes.map Index.nameSet := by
  rw [List.mem_map, List.mem_map]
  constructor
  · intro h
    cases h with
    | primaryKey h => exact .inl ⟨_, List.mem_append_left _ (Option.mem_toList.mpr h), rfl⟩
    | uniqueKey h => exact .inl ⟨_, List.mem_append_right _ h, rfl⟩
    | uniqueIndex h hunique => exact .inr ⟨_, List.mem_filter.mpr ⟨h, hunique⟩, rfl⟩
  · rintro (⟨k, hk, rfl⟩ | ⟨i, hi, rfl⟩)
    · rcases List.mem_append.mp hk with hprimary | hkey
      · exact .primaryKey (Option.mem_toList.mp hprimary)
      · exact .uniqueKey hkey
    · obtain ⟨hmem, hunique⟩ := List.mem_filter.mp hi
      exact .uniqueIndex hmem hunique

/-- The candidates are the lists that a key is compared with. -/
theorem Table.hasCandidate_iff {t : Table} {names : Set String} :
    t.HasCandidate names ↔ ∃ candidate ∈ t.candidates, ∀ name, name ∈ candidate ↔ name ∈ names := by
  rw [hasCandidate_iff_mem, List.mem_map, List.mem_map]
  constructor
  · rintro (⟨k, hk, rfl⟩ | ⟨i, hi, rfl⟩)
    · exact ⟨_, mem_candidates_iff.mpr (.inl ⟨k, hk, rfl⟩), fun _ => Key.mem_nameSet.symm⟩
    · obtain ⟨hmem, hunique⟩ := List.mem_filter.mp hi
      exact ⟨_, mem_candidates_iff.mpr (.inr ⟨i, hmem, hunique, rfl⟩),
        fun _ => Index.mem_nameSet.symm⟩
  · rintro ⟨candidate, hcandidate, hnames⟩
    rcases mem_candidates_iff.mp hcandidate with ⟨k, hk, rfl⟩ | ⟨i, hi, hunique, rfl⟩
    · exact .inl ⟨k, hk, Set.ext fun name => Key.mem_nameSet.trans (hnames name)⟩
    · exact .inr ⟨i, List.mem_filter.mpr ⟨hi, hunique⟩,
        Set.ext fun name => Index.mem_nameSet.trans (hnames name)⟩

theorem Relationship.cardinality_eq_oneToOne_iff {r : Relationship} {t : Table} :
    r.cardinality (some t) = .oneToOne ↔
      r.childKey.columns ≠ [] ∧ t.HasCandidate r.childKey.nameSet := by
  have hunique : r.cardinality (some t) = .oneToOne ↔
      t.isUniqueSet r.childKey.columnNames = true := by
    simp [cardinality]
  have hcolumns : r.childKey.columnNames ≠ [] ↔ r.childKey.columns ≠ [] := by
    simp [Key.columnNames]
  rw [hunique, Table.isUniqueSet_iff, Table.hasCandidate_iff, hcolumns]
  simp only [Key.mem_nameSet]

/-! ### Keys and indexes rearranged -/

/-- The elements of two lists correspond to each other one by one, in whatever order they stand. -/
def Correspond {α : Type} (R : α → α → Prop) (as bs : List α) : Prop :=
  ∃ cs, as.Perm cs ∧ List.Forall₂ R cs bs

/-- Two keys have the same columns in some order each. -/
def Key.Permuted (k l : Key) : Prop :=
  k.columns.Perm l.columns

/-- Two indexes have the same key columns, in some order and with some directions each. Nothing is
said of what they include. -/
def Index.Permuted (i j : Index) : Prop :=
  Correspond (fun c d => d.expression = c.expression ∧ d.column = c.column) i.columns j.columns

/-- The primary keys, the unique keys and the unique indexes of two tables correspond to each other,
each with its columns in some order. Nothing is said of the other indexes, or of anything else in
the tables. -/
structure Table.SameCandidates (t u : Table) : Prop where
  primaryKey : Option.Rel Key.Permuted t.primaryKey u.primaryKey
  uniqueKeys : Correspond Key.Permuted t.uniqueKeys u.uniqueKeys
  uniqueIndexes : Correspond Index.Permuted t.uniqueIndexes u.uniqueIndexes

/-- The table `u` has the primary key of the table `t` and all its unique keys and unique indexes,
and may have further ones. -/
structure Table.AddsCandidates (t u : Table) : Prop where
  primaryKey : u.primaryKey = t.primaryKey
  uniqueKeys : t.uniqueKeys ⊆ u.uniqueKeys
  uniqueIndexes : t.uniqueIndexes ⊆ u.uniqueIndexes

/-- The child keys of two relationships have the same columns, in some order each and with
repetitions. -/
def Relationship.SameChildColumns (r s : Relationship) : Prop :=
  ∀ c, c ∈ r.childKey.columns ↔ c ∈ s.childKey.columns

theorem Correspond.map_perm {α β : Type} {R : α → α → Prop} {f : α → β} {as bs : List α}
    (h : Correspond R as bs) (hf : ∀ a b, R a b → f a = f b) : (as.map f).Perm (bs.map f) := by
  obtain ⟨cs, hperm, hpairs⟩ := h
  have hmap : cs.map f = bs.map f := by
    rw [← List.forall₂_eq_eq_eq, List.forall₂_map_left_iff, List.forall₂_map_right_iff]
    exact hpairs.imp hf
  exact hmap ▸ hperm.map f

theorem Key.Permuted.nameSet_eq {k l : Key} (h : k.Permuted l) : k.nameSet = l.nameSet :=
  Set.ext fun _ => exists_congr fun _ => and_congr_left fun _ => h.mem_iff

theorem Index.Permuted.nameSet_eq {i j : Index} (h : i.Permuted j) : i.nameSet = j.nameSet := by
  have hname : ∀ c d : IndexColumn, d.expression = c.expression ∧ d.column = c.column →
      c.columnName = d.columnName := by
    rintro c d ⟨hexpression, hcolumn⟩
    rw [IndexColumn.columnName, IndexColumn.columnName, hexpression, hcolumn]
  ext name
  rw [mem_nameSet, mem_nameSet]
  exact (h.map_perm hname).mem_iff

theorem Relationship.SameChildColumns.nameSet_eq {r s : Relationship} (h : r.SameChildColumns s) :
    r.childKey.nameSet = s.childKey.nameSet :=
  Set.ext fun _ => exists_congr fun c => and_congr_left fun _ => h c

namespace Table

variable {t u : Table} {names : Set String}

theorem SameCandidates.keys_perm (h : t.SameCandidates u) :
    ((t.primaryKey.toList ++ t.uniqueKeys).map Key.nameSet).Perm
      ((u.primaryKey.toList ++ u.uniqueKeys).map Key.nameSet) := by
  have hprimary : t.primaryKey.toList.map Key.nameSet = u.primaryKey.toList.map Key.nameSet := by
    have hrel := h.primaryKey
    generalize t.primaryKey = k at hrel
    generalize u.primaryKey = l at hrel
    cases hrel with
    | none => rfl
    | some hperm => exact congrArg (fun names => [names]) hperm.nameSet_eq
  rw [List.map_append, List.map_append, hprimary]
  exact (h.uniqueKeys.map_perm fun _ _ => Key.Permuted.nameSet_eq).append_left _

/-- Rearranged keys and indexes are the same candidates. -/
theorem SameCandidates.hasCandidate_iff (h : t.SameCandidates u) :
    t.HasCandidate names ↔ u.HasCandidate names := by
  have hindexes := h.uniqueIndexes.map_perm fun _ _ => Index.Permuted.nameSet_eq
  rw [hasCandidate_iff_mem, hasCandidate_iff_mem, h.keys_perm.mem_iff, hindexes.mem_iff]

/-- Further keys and indexes leave the candidates what they are. -/
theorem AddsCandidates.hasCandidate (h : t.AddsCandidates u) (hnames : t.HasCandidate names) :
    u.HasCandidate names := by
  cases hnames with
  | primaryKey hk => exact .primaryKey (h.primaryKey.trans hk)
  | uniqueKey hk => exact .uniqueKey (h.uniqueKeys hk)
  | uniqueIndex hi hunique =>
    obtain ⟨hi', hunique'⟩ :=
      List.mem_filter.mp (h.uniqueIndexes (List.mem_filter.mpr ⟨hi, hunique⟩))
    exact .uniqueIndex hi' hunique'

end Table

/-! ### The cardinality -/

section Cardinality

variable {r s : Relationship} {t u : Table}

/-- A cardinality is told by whether it is one-to-one. -/
theorem Cardinality.eq_of_iff {c d : Cardinality} (h : c = .oneToOne ↔ d = .oneToOne) : c = d := by
  cases c with
  | oneToOne => exact (h.mp rfl).symm
  | oneToMany =>
    cases d with
    | oneToOne => exact h.mpr rfl
    | oneToMany => rfl

theorem cardinality_of_sameCandidates (hr : r.SameChildColumns s) (ht : t.SameCandidates u) :
    s.cardinality (some u) = r.cardinality (some t) := by
  refine Cardinality.eq_of_iff ?_
  rw [Relationship.cardinality_eq_oneToOne_iff, Relationship.cardinality_eq_oneToOne_iff,
    ← Key.nameSet_nonempty, ← Key.nameSet_nonempty, hr.nameSet_eq, ht.hasCandidate_iff]

theorem cardinality_of_addsCandidates (ht : t.AddsCandidates u)
    (h : r.cardinality (some t) = .oneToOne) : r.cardinality (some u) = .oneToOne := by
  obtain ⟨hcolumns, hcandidate⟩ := Relationship.cardinality_eq_oneToOne_iff.mp h
  exact Relationship.cardinality_eq_oneToOne_iff.mpr ⟨hcolumns, ht.hasCandidate hcandidate⟩

/-- **One-to-one relationships.** A relationship is one-to-one exactly if its child key has columns
and the set of their names is a candidate of the parent table. That does not change with the order
of the columns in the child key or in any candidate, with columns of the child key that are
repeated, with the order of unique keys and indexes, with directions and included columns, and with
the indexes that are not unique. Further unique keys and indexes leave it one-to-one. -/
theorem cardinality_candidates (r : Relationship) (t : Table) :
    (r.cardinality (some t) = .oneToOne ↔
        r.childKey.columns ≠ [] ∧ t.HasCandidate r.childKey.nameSet) ∧
      (∀ (s : Relationship) (u : Table), r.SameChildColumns s → t.SameCandidates u →
        s.cardinality (some u) = r.cardinality (some t)) ∧
      ∀ u : Table, t.AddsCandidates u →
        r.cardinality (some t) = .oneToOne → r.cardinality (some u) = .oneToOne :=
  ⟨Relationship.cardinality_eq_oneToOne_iff, fun _ _ => cardinality_of_sameCandidates,
    fun _ => cardinality_of_addsCandidates⟩

end Cardinality

/-- A column of the seats in a theatre. -/
def seatColumn (name : String) : Column where
  name := name
  type := ⟨"text", .text⟩

/-- A key of the seats. -/
def seatKey (kind : KeyKind) (columns : List String) : Key where
  name := .null
  kind := kind
  columns := columns.map seatColumn

/-- The seats, with the given keys and indexes. -/
def seats (primary : List String) (unique : List (List String)) (indexes : List Index) : Table where
  name := .bare "seat"
  primaryKey := some (seatKey .primary primary)
  uniqueKeys := unique.map (seatKey .unique)
  indexes := indexes

/-- A unique index of the seats by hall and by the small letters of a code, which are an expression.
The hall comes first or last. -/
def codeIndex (hallFirst : Bool) (direction : Direction) (included : List String) : Index where
  name := .null
  columns :=
    let hall : IndexColumn := ⟨"hall", direction, some (seatColumn "hall")⟩
    let code : IndexColumn := ⟨"lower(code)", .ascending, none⟩
    if hallFirst then [hall, code] else [code, hall]
  included := included.map seatColumn
  unique := .bool true

/-- An index of the seats that is not unique. -/
def priceIndex : Index where
  name := .null
  columns := [⟨"price", .descending, some (seatColumn "price")⟩]

/-- A relationship of tickets to the seats. -/
def ticketToSeat (columns : List String) : Relationship where
  childTable := .bare "ticket"
  childKey := seatKey .foreign columns
  parentTable := .bare "seat"
  parentKey := seatKey .primary ["row", "number"]

/-- Tickets by an expression of an index and by the hall are one-to-one with the seats, with the
columns of the seats in another order as well, without one index and with the other in another
direction. A further unique key makes tickets by price one-to-one. -/
theorem tickets_cardinality :
    let r := ticketToSeat ["lower(code)", "hall"]
    let s := ticketToSeat ["hall", "lower(code)", "hall"]
    let t := seats ["row", "number"] [["code"], ["block", "row"]]
      [priceIndex, codeIndex true .ascending []]
    let u := seats ["number", "row"] [["row", "block"], ["code"]]
      [codeIndex false .descending ["price"]]
    let v := seats ["row", "number"] [["price"], ["code"], ["block", "row"]]
      [codeIndex true .ascending []]
    r.SameChildColumns s ∧ t.SameCandidates u ∧ t.AddsCandidates v ∧
      r.childKey.columns ≠ [] ∧ t.HasCandidate r.childKey.nameSet ∧
      s.cardinality (some u) = .oneToOne ∧ r.cardinality (some v) = .oneToOne ∧
      (ticketToSeat ["price"]).cardinality (some t) = .oneToMany ∧
      (ticketToSeat ["price"]).cardinality (some v) = .oneToOne := by
  intro r s t u v
  have hcolumns : r.SameChildColumns s := by
    have hleft : ∀ c ∈ r.childKey.columns, c ∈ s.childKey.columns := by decide +kernel
    have hright : ∀ c ∈ s.childKey.columns, c ∈ r.childKey.columns := by decide +kernel
    exact fun c => ⟨hleft c, hright c⟩
  have hsame : t.SameCandidates u :=
    { primaryKey := .some (.swap _ _ _)
      uniqueKeys := ⟨_, .swap _ _ _, .cons (.swap _ _ _) (.cons (.refl _) .nil)⟩
      uniqueIndexes := ⟨_, .refl _, .cons ⟨_, .swap _ _ _, by decide +kernel⟩ .nil⟩ }
  have hadds : t.AddsCandidates v := ⟨rfl, by decide +kernel, by decide +kernel⟩
  have hone : r.cardinality (some t) = .oneToOne := by decide +kernel
  obtain ⟨hiff, hrearranged, hfurther⟩ := cardinality_candidates r t
  obtain ⟨hne, hcandidate⟩ := hiff.mp hone
  exact ⟨hcolumns, hsame, hadds, hne, hcandidate, (hrearranged s u hcolumns hsame).trans hone,
    hfurther v hadds hone, by decide +kernel, by decide +kernel⟩

end SchemaAudit
