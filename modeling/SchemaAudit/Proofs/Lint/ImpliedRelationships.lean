import Mathlib.Data.List.Find
import Mathlib.Data.List.Forall2
import Mathlib.Data.List.Perm.Basic
import SchemaAudit.Lint.Rule
import SchemaAudit.Proofs.Text.Folding

/-!
# Which columns imply a relationship

A column called after a table, as in `team_id`, implies a relationship to this table, and the rule
about missing foreign keys reports it where it belongs to no foreign key. The rule strips the suffix
and compares in small letters: the stem must be the name of some table, and neither the name of the
column's own table nor, which stands for a name without a suffix, the whole column name. Full case
mapping can make a text longer and depends on what stands next to a letter, and still a text in
small letters is never that of its proper beginning.

- `length_lower_append`: the length of a text in small letters is the sum for its parts.
- `lower_impliedTableName_eq_iff`: the comparison finds out whether a suffix was stripped.
- `ImpliesRelationship`, `FirstOfName`: what makes the rule report a column, and the table it names.
- `impliedRelationships_report`: the rule reports exactly these columns, in whatever order the
  tables stand, and a foreign key takes away the messages about its columns and no others.
-/

namespace SchemaAudit

/-! ### Small letters -/

namespace Text

theorem length_lower (cs : List Char) : (lower cs).length = (fold cs).length := by
  rw [← map_unfinal_lower, List.length_map]

/-- How long the small form of a letter is does not depend on its neighbours. -/
theorem length_lower_append (cs ds : List Char) :
    (lower (cs ++ ds)).length = (lower cs).length + (lower ds).length := by
  rw [length_lower, length_lower, length_lower, fold_append, List.length_append]

theorem length_lower_pos {cs : List Char} (h : cs ≠ []) : 0 < (lower cs).length := by
  cases cs with
  | nil => exact absurd rfl h
  | cons c cs =>
    rw [length_lower, fold, List.flatMap_cons, List.length_append]
    have hpos := List.length_pos_iff.mpr (foldChar_ne_nil c)
    omega

theorem lower_append_ne {cs ds : List Char} (h : ds ≠ []) : lower (cs ++ ds) ≠ lower cs := by
  intro heq
  have hlength := congrArg List.length heq
  rw [length_lower_append] at hlength
  have hpos := length_lower_pos h
  omega

end Text

namespace Lint

/-! ### Stems of column names -/

/-- A suffix is stripped from the name of a column. -/
def Strips (column : String) : Prop :=
  ∃ suffix, suffix ≠ [] ∧ column.toList = (impliedTableName column).toList ++ suffix

/-- What a column name implies is the name or a beginning of it. -/
theorem exists_suffix (column : String) :
    ∃ suffix, column.toList = (impliedTableName column).toList ++ suffix := by
  have htake : ∀ n, ∃ suffix,
      column.toList = (String.ofList (column.toList.take n)).toList ++ suffix := by
    intro n
    refine ⟨column.toList.drop n, ?_⟩
    rw [String.toList_ofList, List.take_append_drop]
  unfold impliedTableName
  dsimp only
  split
  · exact htake _
  · split
    · exact htake _
    · exact ⟨[], (List.append_nil _).symm⟩

theorem strips_iff {column : String} : Strips column ↔ impliedTableName column ≠ column := by
  constructor
  · rintro ⟨suffix, hne, hsplit⟩ heq
    rw [heq] at hsplit
    exact hne (List.self_eq_append_right.mp hsplit)
  · intro hne
    obtain ⟨suffix, hsplit⟩ := exists_suffix column
    refine ⟨suffix, ?_, hsplit⟩
    rintro rfl
    rw [List.append_nil] at hsplit
    exact hne (String.toList_inj.mp hsplit).symm

instance (column : String) : Decidable (Strips column) :=
  decidable_of_iff _ strips_iff.symm

/-- Whether a suffix was stripped can be told from the small letters. -/
theorem lower_impliedTableName_eq_iff {column : String} :
    Text.lowerString (impliedTableName column) = Text.lowerString column ↔ ¬ Strips column := by
  constructor
  · rintro heq ⟨suffix, hne, hsplit⟩
    have hlower := String.ofList_injective heq
    rw [hsplit] at hlower
    exact Text.lower_append_ne hne hlower.symm
  · intro h
    rw [strips_iff, not_not] at h
    rw [h]

/-! ### Columns that imply a relationship -/

/-- The name of the table `u` is the one that a column of the given name implies, but for letter
case. -/
def IsImplied (column : String) (u : Table) : Prop :=
  Text.lowerString u.name.localName = Text.lowerString (impliedTableName column)

instance (column : String) (u : Table) : Decidable (IsImplied column u) :=
  inferInstanceAs (Decidable (_ = _))

/-- Among the tables `ts`, the column `c` of the table `t` implies a relationship that no foreign
key is declared for. -/
structure ImpliesRelationship (ts : List Table) (t : Table) (c : Column) : Prop where
  free : ∀ k ∈ t.parentKeys, c.name ∉ k.childKey.columnNames
  strips : Strips c.name
  other : ¬ IsImplied c.name t
  known : ∃ u ∈ ts, IsImplied c.name u

instance (ts : List Table) (t : Table) (c : Column) : Decidable (ImpliesRelationship ts t c) :=
  decidable_of_iff ((∀ k ∈ t.parentKeys, c.name ∉ k.childKey.columnNames) ∧ Strips c.name ∧
      ¬ IsImplied c.name t ∧ ∃ u ∈ ts, IsImplied c.name u)
    ⟨fun ⟨hfree, hstrips, hother, hknown⟩ => ⟨hfree, hstrips, hother, hknown⟩,
      fun h => ⟨h.free, h.strips, h.other, h.known⟩⟩

/-- The table `u` is the first one of the name that a column implies. -/
def FirstOfName (ts : List Table) (column : String) (u : Table) : Prop :=
  ∃ before after, ts = before ++ u :: after ∧ IsImplied column u ∧
    ∀ v ∈ before, ¬ IsImplied column v

/-- The columns of a table that imply a relationship, in order. -/
def implyingColumns (ts : List Table) (t : Table) : List Column :=
  t.columns.filter fun c => decide (ImpliesRelationship ts t c)

/-- The columns of some of the tables `ts` that imply a relationship, table by table. -/
def implyingAmong (ts part : List Table) : List (Table × Column) :=
  part.flatMap fun t => (implyingColumns ts t).map fun c => (t, c)

/-- What the rule says of a column of a table that implies another table. -/
def implicationText (table : Identifier) (c : Column) (implied : Identifier) : String :=
  s!"The table {table.text} has a column {c.name} implying a relationship " ++
    s!"to {implied.text} which is missing a foreign key constraint."

/-- The message of a rule about a column. It names the first table of the implied name. -/
def Reports (rule : Rule) (ts : List Table) (p : Table × Column) (m : Message) : Prop :=
  ∃ u, FirstOfName ts p.2.name u ∧
    m = rule.say p.1.name (implicationText p.1.name p.2 u.name)

/-! ### The implied table -/

section Implied

variable {ts : List Table} {t u : Table} {c : Column} {column : String}

theorem firstOfName_iff : ts.find? (fun v => decide (IsImplied column v)) = some u ↔
    FirstOfName ts column u := by
  rw [List.find?_eq_some_iff_append, FirstOfName]
  simp only [decide_eq_true_eq, Bool.not_eq_true', decide_eq_false_iff_not]
  constructor
  · rintro ⟨himplied, before, after, hsplit, hbefore⟩
    exact ⟨before, after, hsplit, himplied, hbefore⟩
  · rintro ⟨before, after, hsplit, himplied, hbefore⟩
    exact ⟨himplied, before, after, hsplit, hbefore⟩

/-- The table that a column implies, if a suffix is stripped and the table is another one. -/
theorem impliedTable?_eq :
    impliedTable? (ts.map (·.name)) t.name column =
      if Strips column ∧ ¬ IsImplied column t then
        (ts.find? fun v => decide (IsImplied column v)).map (·.name)
      else none := by
  have hfind : ((ts.map (·.name)).find? fun n =>
      Text.lowerString n.localName == Text.lowerString (impliedTableName column)) =
        (ts.find? fun v => decide (IsImplied column v)).map (·.name) := by
    rw [List.find?_map]
    refine congrArg (Option.map _) (List.find?_congr fun v _ => ?_)
    rw [Bool.eq_iff_iff, Function.comp_apply, beq_iff_eq, decide_eq_true_iff]
    rfl
  -- the search does not start if nothing was stripped or if the stem is the table's own name
  have hstop : (Text.lowerString (impliedTableName column) == Text.lowerString column ||
      Text.lowerString (impliedTableName column) == Text.lowerString t.name.localName) = true ↔
        ¬ (Strips column ∧ ¬ IsImplied column t) := by
    rw [Bool.or_eq_true, beq_iff_eq, beq_iff_eq, lower_impliedTableName_eq_iff, not_and_or, not_not,
      eq_comm (b := Text.lowerString t.name.localName)]
    rfl
  rw [impliedTable?, hfind]
  by_cases h : Strips column ∧ ¬ IsImplied column t
  · rw [if_pos h, if_neg fun hor => hstop.mp hor h]
  · rw [if_neg h, if_pos (hstop.mpr h)]

/-- A column without a foreign key implies a relationship where it implies a table. -/
theorem impliesRelationship_iff :
    ImpliesRelationship ts t c ↔
      c.name ∉ foreignKeyColumns t ∧
        (impliedTable? (ts.map (·.name)) t.name c.name).isSome = true := by
  have hfree : c.name ∉ foreignKeyColumns t ↔
      ∀ k ∈ t.parentKeys, c.name ∉ k.childKey.columnNames := by
    rw [foreignKeyColumns, List.mem_flatMap]
    simp only [not_exists, not_and]
  have hknown : ((ts.find? fun v => decide (IsImplied c.name v)).map (·.name)).isSome = true ↔
      ∃ u ∈ ts, IsImplied c.name u := by
    rw [Option.isSome_map, List.find?_isSome]
    simp only [decide_eq_true_eq]
  rw [hfree, impliedTable?_eq]
  -- otherwise no table is implied, and the condition fails as well
  by_cases h : Strips c.name ∧ ¬ IsImplied c.name t
  · rw [if_pos h, hknown]
    exact ⟨fun hc => ⟨hc.free, hc.known⟩, fun ⟨hk, hu⟩ => ⟨hk, h.1, h.2, hu⟩⟩
  · rw [if_neg h]
    exact ⟨fun hc => absurd ⟨hc.strips, hc.other⟩ h, fun hc => nomatch hc.2⟩

end Implied

/-! ### The messages of the rule -/

/-- The message about a column of a table. -/
def implicationMessage (rule : Rule) (names : List Identifier) (table : Identifier) (c : Column) :
    Message :=
  rule.say table (implicationText table c ((impliedTable? names table c.name).getD table))

/-- The messages about the columns of a table. -/
def implicationMessages (rule : Rule) (ts : List Table) (t : Table) : List Message :=
  (implyingColumns ts t).map (implicationMessage rule (ts.map (·.name)) t.name)

section Messages

variable {ts us : List Table} {t u : Table} {r : Relationship} {rule : Rule}

/-- The columns for which a value is found, each with this value. -/
theorem filterMap_pair_eq {α β : Type} {f : α → Option β} {as : List α} (b : β) :
    (as.filterMap fun a => (f a).map fun b => (a, b)) =
      (as.filter fun a => (f a).isSome).map fun a => (a, (f a).getD b) := by
  induction as with
  | nil => rfl
  | cons a as ih =>
    rw [List.filterMap_cons, List.filter_cons]
    cases hf : f a with
    | none => exact ih
    | some c =>
      rw [ih]
      simp [hf]

theorem impliedRelationships_eq :
    impliedRelationships (ts.map (·.name)) t = (implyingColumns ts t).map fun c =>
      (c, (impliedTable? (ts.map (·.name)) t.name c.name).getD t.name) := by
  rw [impliedRelationships, filterMap_pair_eq t.name, List.filter_filter, implyingColumns]
  refine congrArg (List.map _) (List.filter_congr fun c _ => ?_)
  rw [Bool.eq_iff_iff, decide_eq_true_iff, impliesRelationship_iff]
  simp [and_comm]

/-- The rule goes through the tables and through the columns of each. -/
theorem messages_foreignKeyMissing (h : rule.inspection = .foreignKeyMissing) (ts : List Table) :
    rule.messages (.tables ts) = ts.flatMap (implicationMessages rule ts) := by
  have hfindings : Inspection.findings .foreignKeyMissing (.tables ts) = ts.flatMap fun t =>
      (Inspection.plain (missingForeignKeys (ts.map (·.name)) t)).map fun text => (t.name, text) :=
    rfl
  have htexts : ∀ names t, missingForeignKeys names t =
      (impliedRelationships names t).map fun p => implicationText t.name p.1 p.2 :=
    fun _ _ => rfl
  rw [Rule.messages, h, hfindings, List.map_flatMap]
  refine List.flatMap_congr fun t _ => ?_
  rw [Rule.map_message_plain, htexts, impliedRelationships_eq, List.map_map, List.map_map,
    implicationMessages]
  refine List.map_congr_left fun c _ => ?_
  rw [Function.comp_apply, Function.comp_apply, implicationMessage]

theorem reports_implicationMessage {c : Column} (h : ImpliesRelationship ts t c) :
    Reports rule ts (t, c) (implicationMessage rule (ts.map (·.name)) t.name c) := by
  obtain ⟨u, hfirst⟩ : ∃ u, FirstOfName ts c.name u := by
    obtain ⟨u, hu, himplied⟩ := h.known
    have hsome : (ts.find? fun v => decide (IsImplied c.name v)).isSome = true :=
      List.find?_isSome.mpr ⟨u, hu, decide_eq_true himplied⟩
    obtain ⟨v, hv⟩ := Option.isSome_iff_exists.mp hsome
    exact ⟨v, firstOfName_iff.mp hv⟩
  refine ⟨u, hfirst, ?_⟩
  rw [implicationMessage, impliedTable?_eq, if_pos ⟨h.strips, h.other⟩,
    firstOfName_iff.mpr hfirst]
  rfl

theorem implies_of_mem_implyingColumns {c : Column} (h : c ∈ implyingColumns ts t) :
    ImpliesRelationship ts t c :=
  of_decide_eq_true (List.mem_filter.mp h).2

/-- Each column that implies a relationship has its message. -/
theorem reports_implyingAmong (part : List Table) :
    List.Forall₂ (Reports rule ts) (implyingAmong ts part)
      (part.flatMap (implicationMessages rule ts)) := by
  induction part with
  | nil => exact .nil
  | cons t part ih =>
    rw [implyingAmong, List.flatMap_cons, List.flatMap_cons]
    refine List.rel_append ?_ ih
    rw [implicationMessages, List.forall₂_map_left_iff, List.forall₂_map_right_iff]
    exact List.forall₂_same.mpr fun c hc =>
      reports_implicationMessage (implies_of_mem_implyingColumns hc)

/-! ### Other orders and more foreign keys -/

/-- Two tables have the same name, columns and foreign keys. Their other keys and their indexes can
differ, and what leads to them from other tables. -/
structure SameDeclared (t u : Table) : Prop where
  name : u.name = t.name
  columns : u.columns = t.columns
  parentKeys : u.parentKeys = t.parentKeys

/-- The table `u` is the table `t` with the foreign key `r` besides, which can stand anywhere among
the others. -/
structure Gains (r : Relationship) (t u : Table) : Prop where
  name : u.name = t.name
  columns : u.columns = t.columns
  parentKeys : u.parentKeys.Perm (r :: t.parentKeys)

/-- Of the other tables only the names matter. -/
theorem known_iff (h : us.map (·.name) = ts.map (·.name)) (column : String) :
    (∃ u ∈ us, IsImplied column u) ↔ ∃ u ∈ ts, IsImplied column u := by
  have hnames : ∀ vs : List Table, (∃ v ∈ vs, IsImplied column v) ↔ ∃ n ∈ vs.map (·.name),
      Text.lowerString n.localName = Text.lowerString (impliedTableName column) := by
    intro vs
    simp only [List.mem_map, exists_exists_and_eq_and]
    rfl
  rw [hnames, hnames, h]

theorem implyingColumns_of_sameDeclared (hnames : us.map (·.name) = ts.map (·.name))
    (h : SameDeclared t u) : implyingColumns us u = implyingColumns ts t := by
  rw [implyingColumns, implyingColumns, h.columns]
  refine List.filter_congr fun c _ => ?_
  rw [Bool.eq_iff_iff, decide_eq_true_iff, decide_eq_true_iff, impliesRelationship_iff,
    impliesRelationship_iff, foreignKeyColumns, foreignKeyColumns, hnames, h.name, h.parentKeys]

/-- With a further foreign key, its columns no longer imply a relationship. -/
theorem implyingColumns_of_gains (hnames : us.map (·.name) = ts.map (·.name)) (h : Gains r t u) :
    implyingColumns us u =
      (implyingColumns ts t).filter fun c => decide (c.name ∉ r.childKey.columnNames) := by
  have hfree : ∀ name : String, (∀ k ∈ u.parentKeys, name ∉ k.childKey.columnNames) ↔
      name ∉ r.childKey.columnNames ∧ ∀ k ∈ t.parentKeys, name ∉ k.childKey.columnNames := by
    intro name
    rw [← List.forall_mem_cons (p := fun k : Relationship => name ∉ k.childKey.columnNames)]
    exact forall_congr' fun k => imp_congr_left h.parentKeys.mem_iff
  have himplied : ∀ name : String, IsImplied name u ↔ IsImplied name t := by
    intro name
    rw [IsImplied, IsImplied, h.name]
  rw [implyingColumns, implyingColumns, h.columns, List.filter_filter]
  refine List.filter_congr fun c _ => ?_
  rw [Bool.eq_iff_iff, Bool.and_eq_true, decide_eq_true_iff, decide_eq_true_iff,
    decide_eq_true_iff]
  constructor
  · rintro ⟨hall, hstrips, hother, hknown⟩
    obtain ⟨hr, hkeys⟩ := (hfree c.name).mp hall
    exact ⟨hr, hkeys, hstrips, mt (himplied c.name).mpr hother, (known_iff hnames c.name).mp hknown⟩
  · rintro ⟨hr, hkeys, hstrips, hother, hknown⟩
    exact ⟨(hfree c.name).mpr ⟨hr, hkeys⟩, hstrips, mt (himplied c.name).mp hother,
      (known_iff hnames c.name).mpr hknown⟩

theorem map_name_of_sameDeclared (h : List.Forall₂ SameDeclared ts us) :
    us.map (·.name) = ts.map (·.name) := by
  rw [← List.forall₂_eq_eq_eq, List.forall₂_map_left_iff, List.forall₂_map_right_iff]
  exact h.flip.imp fun _ _ hname => hname.name

/-- What is said of tables that are declared alike is the same. -/
theorem flatMap_of_sameDeclared {all all' : List Table}
    (hnames : all'.map (·.name) = all.map (·.name)) (h : List.Forall₂ SameDeclared ts us) :
    us.flatMap (implicationMessages rule all') = ts.flatMap (implicationMessages rule all) := by
  induction h with
  | nil => rw [List.flatMap_nil, List.flatMap_nil]
  | cons hfirst _ ih =>
    rw [List.flatMap_cons, List.flatMap_cons, ih, implicationMessages, implicationMessages, hnames,
      hfirst.name, implyingColumns_of_sameDeclared hnames hfirst]

theorem flatMap_split {α β : Type} (f : α → List β) (before : List α) (a : α) (after : List α) :
    (before ++ a :: after).flatMap f = before.flatMap f ++ f a ++ after.flatMap f := by
  rw [List.flatMap_append, List.flatMap_cons, List.append_assoc]

/-- The messages about the columns of the foreign key `r` are taken away. The rule is applied to the
tables `ts`, where `t` stands between `before` and `after`, and to the tables `us`, where `t` has
the foreign key. -/
def TakesAway (rule : Rule) (ts before : List Table) (t : Table) (after us : List Table)
    (r : Relationship) : Prop :=
  ∃ (front back : List Message) (about : Column → Message),
    List.Forall₂ (Reports rule ts) (implyingAmong ts before) front ∧
      (∀ c ∈ implyingColumns ts t, Reports rule ts (t, c) (about c)) ∧
      List.Forall₂ (Reports rule ts) (implyingAmong ts after) back ∧
      rule.messages (.tables ts) = front ++ (implyingColumns ts t).map about ++ back ∧
      rule.messages (.tables us) = front ++ ((implyingColumns ts t).filter fun c =>
        decide (c.name ∉ r.childKey.columnNames)).map about ++ back

theorem takesAway_of_gains (hrule : rule.inspection = .foreignKeyMissing)
    {before after before' after' : List Table} (hts : ts = before ++ t :: after)
    (hbefore : List.Forall₂ SameDeclared before before') (h : Gains r t u)
    (hafter : List.Forall₂ SameDeclared after after') :
    TakesAway rule ts before t after (before' ++ u :: after') r := by
  -- of all tables together only the names count, and these stay
  have hnames : (before' ++ u :: after').map (·.name) = ts.map (·.name) := by
    rw [hts, List.map_append, List.map_append, List.map_cons, List.map_cons,
      map_name_of_sameDeclared hbefore, map_name_of_sameDeclared hafter, h.name]
  have hwith : rule.messages (.tables (before' ++ u :: after')) =
      before.flatMap (implicationMessages rule ts) ++
        ((implyingColumns ts t).filter fun c => decide (c.name ∉ r.childKey.columnNames)).map
          (implicationMessage rule (ts.map (·.name)) t.name) ++
        after.flatMap (implicationMessages rule ts) := by
    rw [messages_foreignKeyMissing hrule, flatMap_split, flatMap_of_sameDeclared hnames hbefore,
      flatMap_of_sameDeclared hnames hafter, implicationMessages, hnames,
      implyingColumns_of_gains hnames h, h.name]
  have hwithout : rule.messages (.tables ts) =
      before.flatMap (implicationMessages rule ts) ++ implicationMessages rule ts t ++
        after.flatMap (implicationMessages rule ts) := by
    rw [messages_foreignKeyMissing hrule, ← flatMap_split, ← hts]
  exact ⟨_, _, _, reports_implyingAmong before,
    fun _ hc => reports_implicationMessage (implies_of_mem_implyingColumns hc),
    reports_implyingAmong after, hwithout, hwith⟩

/-- In whatever order the tables stand, the same columns imply a relationship. -/
theorem implyingAmong_perm (h : us.Perm ts) :
    (implyingAmong us us).Perm (implyingAmong ts ts) := by
  have himplies : ∀ t c, ImpliesRelationship us t c ↔ ImpliesRelationship ts t c := by
    intro t c
    constructor
    · rintro ⟨hfree, hstrips, hother, u, hu, himplied⟩
      exact ⟨hfree, hstrips, hother, u, h.mem_iff.mp hu, himplied⟩
    · rintro ⟨hfree, hstrips, hother, u, hu, himplied⟩
      exact ⟨hfree, hstrips, hother, u, h.mem_iff.mpr hu, himplied⟩
  have hcolumns : implyingColumns us = implyingColumns ts := by
    funext t
    exact List.filter_congr fun c _ => decide_eq_decide.mpr (himplies t c)
  rw [implyingAmong, hcolumns]
  exact h.flatMap_right _

/-- **Exactly the columns that imply a relationship are reported.** The rule about missing foreign
keys has one message for each of them, table by table and in the order of the columns, and names the
first table of the implied name. In another order of the tables the same columns are reported. Where
a table gets a further foreign key, the messages about the columns of this key are taken away, and
all others stay. -/
theorem impliedRelationships_report (ts : List Table) (level : Level) :
    let rule : Rule := ⟨.foreignKeyMissing, level⟩
    List.Forall₂ (Reports rule ts) (implyingAmong ts ts) (rule.messages (.tables ts)) ∧
      (∀ us : List Table, us.Perm ts → (implyingAmong us us).Perm (implyingAmong ts ts)) ∧
      ∀ (before after before' after' : List Table) (t u : Table) (r : Relationship),
        ts = before ++ t :: after → List.Forall₂ SameDeclared before before' → Gains r t u →
          List.Forall₂ SameDeclared after after' →
            TakesAway rule ts before t after (before' ++ u :: after') r := by
  intro rule
  have hrule : rule.inspection = .foreignKeyMissing := rfl
  refine ⟨?_, fun us => implyingAmong_perm, ?_⟩
  · rw [messages_foreignKeyMissing hrule]
    exact reports_implyingAmong ts
  · intro before after before' after' t u r hts hbefore hgains hafter
    exact takesAway_of_gains hrule hts hbefore hgains hafter

end Messages

/-! ### Houses in streets and provinces -/

/-- A table of the given name with columns of integers and with foreign keys. -/
def registerTable (name : String) (columns : List String) (keys : List Relationship) : Table where
  name := .bare name
  columns := columns.map fun column => { name := column, type := ⟨"int", .integer⟩ }
  parentKeys := keys

/-- A house stands in a street. -/
def houseToStreet : Relationship where
  childTable := .bare "House"
  childKey := ⟨.null, .foreign, [{ name := "streetId", type := ⟨"int", .integer⟩ }], .bool true⟩
  parentTable := .bare "street"
  parentKey := ⟨.null, .primary, [{ name := "id", type := ⟨"int", .integer⟩ }], .bool true⟩

/-- The houses, with the foreign keys that are declared. Two columns imply a street and a province:
one is called after the houses themselves, and one like a street without a suffix. -/
def houses (keys : List Relationship) : Table :=
  registerTable "House" ["house_id", "street", "streetId", "İl_ID"] keys

/-- Two tables are called after streets, and one after provinces with a letter whose small form is
made of two characters. -/
def regions : List Table :=
  [registerTable "Street" ["owner_id"] [], registerTable "street" [] [], registerTable "İL" [] []]

/-- The columns for a street and for a province are reported, in two orders of the tables. With the
foreign key to the street only the province remains. -/
theorem houses_report :
    let ts := houses [] :: regions
    let us := (houses [] :: regions).reverse
    let rule : Rule := ⟨.foreignKeyMissing, .warning⟩
    us.Perm ts ∧ Gains houseToStreet (houses []) (houses [houseToStreet]) ∧
      (implyingAmong ts ts).map (fun p => (p.1.name.text, p.2.name)) =
        [("House", "streetId"), ("House", "İl_ID")] ∧
      List.Forall₂ (Reports rule ts) (implyingAmong ts ts) (rule.messages (.tables ts)) ∧
      (implyingAmong us us).Perm (implyingAmong ts ts) ∧
      TakesAway rule ts [] (houses []) regions (houses [houseToStreet] :: regions)
        houseToStreet ∧
      (rule.messages (.tables ts)).map (·.text) =
        ["The table House has a column streetId implying a relationship to Street " ++
            "which is missing a foreign key constraint.",
          "The table House has a column İl_ID implying a relationship to İL " ++
            "which is missing a foreign key constraint."] ∧
      (rule.messages (.tables us)).map (·.text) =
        ["The table House has a column streetId implying a relationship to street " ++
            "which is missing a foreign key constraint.",
          "The table House has a column İl_ID implying a relationship to İL " ++
            "which is missing a foreign key constraint."] ∧
      (rule.messages (.tables (houses [houseToStreet] :: regions))).map (·.text) =
        ["The table House has a column İl_ID implying a relationship to İL " ++
            "which is missing a foreign key constraint."] := by
  intro ts us rule
  have hperm : us.Perm ts := List.reverse_perm _
  have hgains : Gains houseToStreet (houses []) (houses [houseToStreet]) := ⟨rfl, rfl, .refl _⟩
  have hregions : List.Forall₂ SameDeclared regions regions :=
    List.forall₂_same.mpr fun _ _ => ⟨rfl, rfl, rfl⟩
  obtain ⟨hreports, hordered, htaken⟩ := impliedRelationships_report ts .warning
  exact ⟨hperm, hgains, by decide +kernel, hreports, hordered us hperm,
    htaken [] regions [] regions _ _ houseToStreet rfl .nil hgains hregions, by decide +kernel,
    by decide +kernel, by decide +kernel⟩

end Lint

end SchemaAudit
