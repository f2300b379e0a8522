import SchemaAudit.Proofs.Number.Integer
import SchemaAudit.Proofs.Settings.Precedence
import SchemaAudit.Proofs.Snapshot.WellFormed

/-!
# Numbers in snapshots and settings

A sequence, a column that counts up and the limit for columns take integers, and a document may give
these as integers or as texts that denote one. The number that is kept is then the one that is
given. Two kinds of other values are not refused, though. A finite floating-point number loses its
fraction, and a truth value counts as a limit. An infinite number makes the reading fail, but not
with a fault of the snapshot or of the settings.

- `Doc.StandsFor`, `Doc.CutTo`, `Doc.CountsAs`: the integers that values give.
- `Snapshot.Stores`, `Snapshot.Refuses`: what a definition keeps of a value, and how it is refused.
- `Snapshot.Faithful`: no number is changed, and every other value is refused with a fault.
- `Snapshot.RefusesFirst`: of several numbers in a definition the first one that is refused decides.
- `Settings.StoresLimit`, `Settings.RefusesLimit`, `Settings.FaithfulLimit`: the same for the limit
  of the settings.
- `numbers_read`: which values are read faithfully, and what becomes of the others.
-/

namespace SchemaAudit

/-! ### Values -/

namespace Doc

/-- A value stands for an integer: it is the integer, or a text that denotes it. -/
inductive StandsFor : Doc → Int → Prop where
  | int (n : Int) : StandsFor (.int n) n
  | text {s : String} {n : Int} (h : Number.Denotes s.toList n) : StandsFor (.text s) n

/-- A value is cut off at an integer: it is a finite floating-point number, and what stands behind
the point is lost. -/
inductive CutTo : Doc → Int → Prop where
  | float {x : Binary64} {q : ℚ} (h : Number.value? x = some q) :
    CutTo (.float x) (Number.towardZero q)

/-- A truth value counts as an integer: as one or zero. -/
inductive CountsAs : Doc → Int → Prop where
  | bool (b : Bool) : CountsAs (.bool b) (boolNumber b)

/-- The integer that a value gives in some way. -/
def Gives (d : Doc) (n : Int) : Prop :=
  d.StandsFor n ∨ d.CutTo n ∨ d.CountsAs n

/-- A value is an infinite number. -/
def IsInfinite (d : Doc) : Prop :=
  ∃ negative, d = .float (.infinite negative)

variable {d : Doc} {m n : Int} {other f : Failure}

theorem cutTo_float_iff {x : Binary64} : (Doc.float x).CutTo n ↔ x.truncate? = some n := by
  rw [Number.truncate?_eq, Option.map_eq_some_iff]
  constructor
  · rintro ⟨h⟩
    exact ⟨_, h, rfl⟩
  · rintro ⟨q, h, rfl⟩
    exact .float h

/-- What is read of a value is what it gives. -/
theorem readInteger_eq_ok_iff : d.readInteger other = .ok n ↔ d.Gives n := by
  cases d with
  | int m =>
    constructor
    · intro h
      exact Except.ok.inj h ▸ .inl (.int m)
    · rintro (h | h | h) <;> cases h
      rfl
  | bool b =>
    constructor
    · intro h
      exact Except.ok.inj h ▸ .inr (.inr (.bool b))
    · rintro (h | h | h) <;> cases h
      rfl
  | float x =>
    have hcut : (Doc.float x).Gives n ↔ x.truncate? = some n := by
      rw [← cutTo_float_iff]
      refine ⟨?_, fun h => .inr (.inl h)⟩
      rintro (h | h | h)
      · cases h
      · exact h
      · cases h
    rw [hcut, readInteger]
    cases x.truncate? with
    | none => exact ⟨nofun, nofun⟩
    | some m => exact ⟨fun h => congrArg some (Except.ok.inj h), fun h => by rw [Option.some.inj h]⟩
  | text s =>
    have hdenotes : (Doc.text s).Gives n ↔ Number.readInteger? s.toList = some n := by
      rw [Number.readInteger?_eq_some_iff]
      refine ⟨?_, fun h => .inl (.text h)⟩
      rintro (h | h | h) <;> cases h
      assumption
    rw [hdenotes, readInteger]
    cases Number.readInteger? s.toList with
    | none => exact ⟨nofun, nofun⟩
    | some m => exact ⟨fun h => congrArg some (Except.ok.inj h), fun h => by rw [Option.some.inj h]⟩
  | _ =>
    refine ⟨nofun, ?_⟩
    rintro (h | h | h) <;> cases h

/-- A value gives one integer at most. -/
theorem Gives.unique (h : d.Gives m) (h' : d.Gives n) : m = n := by
  have hm : d.readInteger .notFinite = .ok m := readInteger_eq_ok_iff.mpr h
  exact Except.ok.inj (hm.symm.trans (readInteger_eq_ok_iff.mpr h'))

theorem readInteger_of_isInfinite (h : d.IsInfinite) : d.readInteger other = .error .notFinite := by
  obtain ⟨negative, rfl⟩ := h
  rfl

theorem IsInfinite.not_gives (h : d.IsInfinite) : ¬ d.Gives n := by
  intro hgives
  have hread : d.readInteger .wrongShape = .ok n := readInteger_eq_ok_iff.mpr hgives
  cases hread.symm.trans (readInteger_of_isInfinite h)

/-- The failure of a value that is not infinite is the given one. -/
theorem eq_of_readInteger_eq_error (hfinite : ¬ d.IsInfinite)
    (h : d.readInteger other = .error f) : f = other := by
  cases d with
  | int m => cases h
  | bool b => cases h
  | float x =>
    cases x with
    | nan => exact (Except.error.inj h).symm
    | infinite negative => exact absurd ⟨negative, rfl⟩ hfinite
    | finite negative m e => cases h
  | text s =>
    rw [readInteger] at h
    split at h
    · cases h
    · exact (Except.error.inj h).symm
  | _ => exact (Except.error.inj h).symm

theorem readInteger_of_not_gives (hfinite : ¬ d.IsInfinite) (hnone : ∀ n, ¬ d.Gives n) :
    d.readInteger other = .error other := by
  cases hread : d.readInteger other with
  | ok n => exact absurd (readInteger_eq_ok_iff.mp hread) (hnone n)
  | error g => rw [eq_of_readInteger_eq_error hfinite hread]

end Doc

/-- A failure is told as it is if what it shows can be written, and is another one otherwise. -/
theorem told_eq_self_iff {f : Failure} (hf : f ≠ .unwritable) :
    f.told = f ↔ f.values.all Doc.isWritable = true := by
  unfold Failure.told
  split
  · next h => exact iff_of_true rfl h
  · next h => exact iff_of_false hf.symm h

/-! ### Definitions -/

namespace Snapshot

/-- The number that a definition keeps of a value: the integer that the value stands for, if it can
be written, or the one at which the value is cut off. -/
def Stores (d : Doc) (n : Int) : Prop :=
  d.StandsFor n ∧ d.isWritable = true ∨ d.CutTo n

/-- How a value is refused where a definition has a number: infinite numbers with a failure of their
own, and the others with the fault that names the owner, the field and the value. -/
inductive Refuses (owner field : String) (d : Doc) : Failure → Prop where
  | infinite (h : d.IsInfinite) : Refuses owner field d .notFinite
  | fault (hfinite : ¬ d.IsInfinite) (hnone : ∀ n, ¬ Stores d n) :
    Refuses owner field d (Failure.snapshot (.notInteger owner field d)).told

/-- How a definition with several numbers is refused: as the first of them is. -/
def RefusesFirst (owner : String) (numbers : List (String × Doc)) (f : Failure) : Prop :=
  ∃ before p after, numbers = before ++ p :: after ∧ (∀ q ∈ before, ∃ n, Stores q.2 n) ∧
    Refuses owner p.1 p.2 f

variable {d e : Doc} {owner field : String} {n : Int} {f : Failure}

theorem isWritable_of_cutTo (h : d.CutTo n) : d.isWritable = true := by
  cases h
  rfl

theorem readInteger_eq_ok_iff : readInteger owner field d = .ok n ↔ Stores d n := by
  simp only [readInteger, bind_eq_ok_iff, require_eq_ok_iff, Doc.readInteger_eq_ok_iff,
    Bool.and_eq_true, bne_iff_ne]
  constructor
  · rintro ⟨-, ⟨⟨hwritable, htrue⟩, hfalse⟩, h | h | h⟩
    · exact .inl ⟨h, hwritable⟩
    · exact .inr h
    -- truth values are refused before anything is read of them
    · obtain ⟨b⟩ := h
      cases b with
      | false => exact absurd rfl hfalse
      | true => exact absurd rfl htrue
  · rintro (⟨h, hwritable⟩ | h)
    · refine ⟨(), ⟨⟨hwritable, ?_⟩, ?_⟩, .inl h⟩ <;> cases h <;> nofun
    · refine ⟨(), ⟨⟨isWritable_of_cutTo h, ?_⟩, ?_⟩, .inr (.inl h)⟩ <;> cases h <;> nofun

theorem readInteger_of_isInfinite (h : d.IsInfinite) :
    readInteger owner field d = .error .notFinite := by
  obtain ⟨negative, rfl⟩ := h
  rfl

theorem readInteger_of_not_stores (hfinite : ¬ d.IsInfinite) (hnone : ∀ n, ¬ Stores d n) :
    readInteger owner field d = .error (.snapshot (.notInteger owner field d)) := by
  cases hread : readInteger owner field d with
  | ok n => exact absurd (readInteger_eq_ok_iff.mp hread) (hnone n)
  | error g =>
    rw [readInteger, require] at hread
    split at hread
    · rw [Doc.eq_of_readInteger_eq_error hfinite hread]
    · exact hread.symm

/-- What is told of a value that is refused. -/
theorem told_readInteger_iff :
    (readInteger owner field d).mapError Failure.told = .error f ↔ Refuses owner field d f := by
  refine eq_error_iff_of_total (fun n => mapError_eq_ok_iff.trans readInteger_eq_ok_iff) ?_ ?_
  · rintro g (h | ⟨hfinite, hnone⟩)
    · rw [readInteger_of_isInfinite h]
      rfl
    · rw [readInteger_of_not_stores hfinite hnone]
      rfl
  · by_cases hinfinite : d.IsInfinite
    · exact .inr ⟨_, .infinite hinfinite⟩
    · by_cases hstores : ∃ n, Stores d n
      · exact .inl hstores
      · exact .inr ⟨_, .fault hinfinite (not_exists.mp hstores)⟩

/-- The number in a field is kept exactly if the value stands for it. A value that stands for no
number is refused with the fault of the field. -/
def Faithful (owner field : String) (d : Doc) : Prop :=
  (∀ n, readInteger owner field d = .ok n ↔ d.StandsFor n) ∧
    ((∀ n, ¬ d.StandsFor n) → (readInteger owner field d).mapError Failure.told =
      .error (.snapshot (.notInteger owner field d)))

theorem refuses_fault_iff :
    Refuses owner field d (.snapshot (.notInteger owner field d)) ↔
      ¬ d.IsInfinite ∧ (∀ n, ¬ Stores d n) ∧ d.isWritable = true := by
  have htold : (Failure.snapshot (.notInteger owner field d)).told =
      .snapshot (.notInteger owner field d) ↔ d.isWritable = true := by
    refine (told_eq_self_iff ?_).trans ?_
    · nofun
    · simp [Failure.values, SnapshotFault.values]
  constructor
  · intro h
    generalize hfault : Failure.snapshot (.notInteger owner field d) = fault at h
    obtain _ | ⟨hfinite, hnone⟩ := h
    · cases hfault
    · exact ⟨hfinite, hnone, htold.mp hfault.symm⟩
  · rintro ⟨hfinite, hnone, hwritable⟩
    exact htold.mpr hwritable ▸ .fault hfinite hnone

/-- Of floating-point numbers only the one that is no number is read faithfully, and of the other
values those that can be written. -/
theorem faithful_iff :
    Faithful owner field d ↔ d.isWritable = true ∧ ∀ x, d = .float x → x = .nan := by
  simp only [Faithful, readInteger_eq_ok_iff, told_readInteger_iff, refuses_fault_iff]
  constructor
  · rintro ⟨hkept, hrefused⟩
    constructor
    · by_cases hstands : ∃ n, d.StandsFor n
      · obtain ⟨n, hn⟩ := hstands
        rcases (hkept n).mpr hn with ⟨-, hwritable⟩ | hcut
        · exact hwritable
        · exact isWritable_of_cutTo hcut
      · exact (hrefused (not_exists.mp hstands)).2.2
    -- a floating-point number stands for none, so it has to be refused with the fault
    · rintro x rfl
      obtain ⟨hfinite, hnone, -⟩ := hrefused fun n => nofun
      cases x with
      | nan => rfl
      | infinite negative => exact absurd ⟨negative, rfl⟩ hfinite
      | finite negative m e => exact absurd (.inr (.float rfl)) (hnone _)
  · rintro ⟨hwritable, hnan⟩
    have hstores : ∀ n, Stores d n ↔ d.StandsFor n := by
      refine fun n => ⟨?_, fun h => .inl ⟨h, hwritable⟩⟩
      rintro (⟨h, -⟩ | hcut)
      · exact h
      · cases hcut with
        | float hvalue =>
          rw [hnan _ rfl] at hvalue
          cases hvalue
    refine ⟨hstores, fun hnone => ⟨?_, fun n h => hnone n ((hstores n).mp h), hwritable⟩⟩
    rintro ⟨negative, rfl⟩
    cases hnan _ rfl

/-! ### Readings that fail alike -/

section Alike

variable {ε α β γ δ : Type}

/-- Two readings fail in the same way, or both succeed. -/
def FailAlike (x : Except ε α) (y : Except ε β) : Prop :=
  ∀ f, x = .error f ↔ y = .error f

theorem FailAlike.ok (a : α) (b : β) : FailAlike (.ok a : Except ε α) (.ok b : Except ε β) :=
  fun _ => ⟨nofun, nofun⟩

/-- Readings that fail alike, one after the other. -/
theorem FailAlike.bind {x : Except ε α} {y : Except ε β} {g : α → Except ε γ} {k : β → Except ε δ}
    (h : FailAlike x y) (hnext : ∀ a b, FailAlike (g a) (k b)) :
    FailAlike (x >>= g) (y >>= k) := by
  cases x with
  | error e =>
    intro f
    rw [(h e).mp rfl, bind_eq_of_error rfl, bind_eq_of_error rfl, Except.error.injEq,
      Except.error.injEq]
  | ok a =>
    cases y with
    | error e => cases (h e).mpr rfl
    | ok b => exact hnext a b

end Alike

/-! ### Several numbers -/

/-- The numbers of a definition, one after the other. -/
def readNumbers (owner : String) (numbers : List (String × Doc)) : Except Failure (List Int) :=
  numbers.mapM fun p => readInteger owner p.1 p.2

/-- The number in a field, unless it is `null`. -/
def optionalNumber (field : String) (d : Doc) : List (String × Doc) :=
  if d = .null then [] else [(field, d)]

/-- The numbers of a sequence. -/
def sequenceNumbers (e : Doc) : List (String × Doc) :=
  [("start", fieldOr e "start" (.int 1))] ++
    ([("increment", fieldOr e "increment" (.int 1))] ++
      (optionalNumber "min_value" (e.get "min_value") ++
        (optionalNumber "max_value" (e.get "max_value") ++
          [("cache", fieldOr e "cache" (.int 0))])))

/-- The numbers of a column that counts up. -/
def countingNumbers (e : Doc) : List (String × Doc) :=
  [("initial", fieldOr e "initial" (.int 1))] ++ [("increment", fieldOr e "increment" (.int 1))]

/-- A reading fails like the numbers do that it starts with, if what comes next fails like the other
numbers. -/
theorem FailAlike.append {α β : Type} {x : Except Failure α} {g : α → Except Failure β}
    {front rest : List (String × Doc)} (h : FailAlike x (readNumbers owner front))
    (hnext : ∀ a, FailAlike (g a) (readNumbers owner rest)) :
    FailAlike (x >>= g) (readNumbers owner (front ++ rest)) := by
  have happend : readNumbers owner (front ++ rest) =
      readNumbers owner front >>= fun ms => readNumbers owner rest >>= fun ns => .ok (ms ++ ns) :=
    List.mapM_append
  rw [happend]
  refine h.bind fun a ms f => ?_
  rw [hnext a f]
  exact bind_ok_eq_error_iff.symm

theorem failAlike_readInteger (owner field : String) (d : Doc) :
    FailAlike (readInteger owner field d) (readNumbers owner [(field, d)]) := by
  intro f
  rw [readNumbers, List.mapM_cons, List.mapM_nil]
  exact bind_ok_eq_error_iff.symm

theorem failAlike_readOptionalInteger (owner field : String) (d : Doc) :
    FailAlike (readOptionalInteger owner field d) (readNumbers owner (optionalNumber field d)) := by
  unfold readOptionalInteger optionalNumber
  split
  · exact .ok none []
  · exact fun f => bind_ok_eq_error_iff.trans (failAlike_readInteger owner field d f)

/-- A sequence with a name fails like its numbers. -/
theorem failAlike_readSequence {name : Identifier} (hmap : e.isMap = true)
    (hname : readName .sequence "name" e = .ok name) :
    FailAlike (readSequence e) (readNumbers s!"Sequence '{name.text}'" (sequenceNumbers e)) := by
  have hrequire : require e.isMap (.notMapping .sequence e) = .ok () := require_eq_ok_iff.mpr hmap
  rw [readSequence, bind_eq_of_ok hrequire, bind_eq_of_ok hname]
  refine .append (failAlike_readInteger _ _ _) fun start => ?_
  refine .append (failAlike_readInteger _ _ _) fun increment => ?_
  refine .append (failAlike_readOptionalInteger _ _ _) fun minValue => ?_
  refine .append (failAlike_readOptionalInteger _ _ _) fun maxValue => ?_
  exact fun f => bind_ok_eq_error_iff.trans (failAlike_readInteger _ _ _ f)

/-- A column that counts up fails like its numbers. -/
theorem failAlike_readAutoIncrement {column : Doc} {es : List (Doc × Doc)}
    (hwritable : column.isWritable = true) :
    FailAlike (readAutoIncrement column (.map es))
      (readNumbers s!"Column '{column.display}'" (countingNumbers (.map es))) := by
  have hwrite : column.write = .ok column.display := if_pos hwritable
  rw [readAutoIncrement, bind_eq_of_ok hwrite]
  refine .append (failAlike_readInteger _ _ _) fun initial => ?_
  exact fun f => bind_ok_eq_error_iff.trans (failAlike_readInteger _ _ _ f)

/-- A definition that fails like its numbers is refused as the first of them is. -/
theorem FailAlike.told_iff {α : Type} {x : Except Failure α} {numbers : List (String × Doc)}
    (h : FailAlike x (readNumbers owner numbers)) :
    x.mapError Failure.told = .error f ↔ RefusesFirst owner numbers f := by
  have haccepted : ∀ q : String × Doc,
      Accepted (readInteger owner q.1 q.2) ↔ ∃ n, Stores q.2 n :=
    fun q => exists_congr fun n => readInteger_eq_ok_iff
  simp only [mapError_eq_error_iff, h _, readNumbers, mapM_eq_error_iff, haccepted, RefusesFirst,
    ← told_readInteger_iff]
  constructor
  · rintro ⟨g, ⟨before, p, after, heq, hbefore, hg⟩, hf⟩
    exact ⟨before, p, after, heq, hbefore, g, hg, hf⟩
  · rintro ⟨before, p, after, heq, hbefore, g, hg, hf⟩
    exact ⟨g, ⟨before, p, after, heq, hbefore, hg⟩, hf⟩

/-! ### Numbers that are kept -/

/-- What a definition keeps of a number that may be `null`. -/
def StoresOptional (d : Doc) : Option Int → Prop
  | none => d = .null
  | some n => d ≠ .null ∧ Stores d n

/-- A sequence has the numbers that its definition gives. -/
structure StoresSequence (e : Doc) (s : Sequence) : Prop where
  start : Stores (fieldOr e "start" (.int 1)) s.start
  increment : Stores (fieldOr e "increment" (.int 1)) s.increment
  minValue : StoresOptional (e.get "min_value") s.minValue
  maxValue : StoresOptional (e.get "max_value") s.maxValue
  cache : Stores (fieldOr e "cache" (.int 0)) s.cache

/-- A column counts up as its definition says: by the numbers of a mapping, one by one for `true`,
and otherwise not at all. -/
def StoresCounting (e : Doc) (c : Column) : Prop :=
  match e.get "autoincrement" with
  | .map es => ∃ a, c.autoIncrement = some a ∧
    Stores (fieldOr (.map es) "initial" (.int 1)) a.initial ∧
    Stores (fieldOr (.map es) "increment" (.int 1)) a.increment
  | .bool true => c.autoIncrement = some ⟨1, 1⟩
  | _ => c.autoIncrement = none

/-- The columns of a definition count up as it says. -/
def StoresColumns (e : Doc) (columns : List Column) : Prop :=
  ∃ cs, (e.get "columns").parts? = some cs ∧ List.Forall₂ StoresCounting cs columns

/-- All numbers of a database are those that its snapshot gives. -/
structure StoresNumbers (d : Doc) (db : Database) : Prop where
  tables : ∃ es, (d.get "tables").parts? = some es ∧
    List.Forall₂ (fun e t => StoresColumns e t.columns) es db.tables
  views : ∃ es, (d.get "views").parts? = some es ∧
    List.Forall₂ (fun e v => StoresColumns e v.columns) es db.views
  sequences : ∃ es, (d.get "sequences").parts? = some es ∧
    List.Forall₂ StoresSequence es db.sequences

theorem storesOptional_of_readOptionalInteger {n? : Option Int}
    (h : readOptionalInteger owner field d = .ok n?) : StoresOptional d n? := by
  unfold readOptionalInteger at h
  split at h
  · next hnull =>
    obtain rfl := Except.ok.inj h
    exact hnull
  · next hne =>
    obtain ⟨n, hn, h⟩ := bind_eq_ok_iff.mp h
    obtain rfl := Except.ok.inj h
    exact ⟨hne, readInteger_eq_ok_iff.mp hn⟩

theorem storesSequence_of_readSequence {s : Sequence} (h : readSequence e = .ok s) :
    StoresSequence e s := by
  simp only [readSequence, bind_eq_ok_iff, readInteger_eq_ok_iff, Except.ok.injEq] at h
  obtain ⟨-, -, name, -, start, hstart, increment, hincrement, minValue, hminValue, maxValue,
    hmaxValue, cache, hcache, rfl⟩ := h
  exact ⟨hstart, hincrement, storesOptional_of_readOptionalInteger hminValue,
    storesOptional_of_readOptionalInteger hmaxValue, hcache⟩

theorem storesCounting_of_readColumn {c : Column} (h : readColumn e = .ok c) :
    StoresCounting e c := by
  simp only [readColumn, bind_eq_ok_iff, Except.ok.injEq] at h
  obtain ⟨-, -, -, -, -, -, dataType, -, counting, hcounting, name, -, definition, -, default, -,
    rfl⟩ := h
  unfold StoresCounting
  unfold readAutoIncrement at hcounting
  split at hcounting
  · next htrue =>
    rw [htrue]
    exact (Except.ok.inj hcounting).symm
  · next es hmap =>
    rw [hmap]
    simp only [bind_eq_ok_iff, readInteger_eq_ok_iff, Except.ok.injEq] at hcounting
    obtain ⟨text, -, initial, hinitial, increment, hincrement, rfl⟩ := hcounting
    exact ⟨⟨initial, increment⟩, rfl, hinitial, hincrement⟩
  · next htrue hmap =>
    split
    · next es hes => exact absurd hes (hmap es)
    · next hbool => exact absurd hbool htrue
    · exact (Except.ok.inj hcounting).symm

theorem storesColumns_of_readTable {dt : Draft} (h : readTable e = .ok dt) :
    StoresColumns e dt.table.columns := by
  obtain ⟨cs, hcs, hcolumns⟩ := readTable_columns h
  exact ⟨cs, hcs, hcolumns.imp fun _ _ => storesCounting_of_readColumn⟩

theorem storesColumns_of_readView {v : View} (h : readView e = .ok v) :
    StoresColumns e v.columns := by
  simp only [readView, bind_eq_ok_iff, Except.ok.injEq] at h
  obtain ⟨-, -, name, -, columns, hcolumns, rfl⟩ := h
  obtain ⟨cs, hcs, hcolumns⟩ := readList_eq_ok_iff.mp hcolumns
  exact ⟨cs, hcs, hcolumns.imp fun _ _ => storesCounting_of_readColumn⟩

theorem storesNumbers_of_readDatabase {db : Database} (h : readDatabase d = .ok db) :
    StoresNumbers d db := by
  obtain ⟨-, ⟨es, ds, hes, hdrafts, hlinked⟩, hviews, hsequences, -⟩ := readDatabase_eq_ok_iff.mp h
  obtain ⟨hread, hnames, -⟩ := readTables_eq_ok_iff.mp hdrafts
  obtain ⟨-, htables⟩ := (linkTables_eq_ok_iff hnames).mp hlinked
  obtain ⟨vs, hvs, hviews⟩ := readList_eq_ok_iff.mp hviews
  obtain ⟨ss, hss, hsequences⟩ := readList_eq_ok_iff.mp hsequences
  refine ⟨⟨es, hes, ?_⟩, ⟨vs, hvs, ?_⟩, ⟨ss, hss, ?_⟩⟩
  · rw [htables, List.forall₂_map_right_iff]
    exact hread.imp fun _ _ => storesColumns_of_readTable
  · exact hviews.imp fun _ _ => storesColumns_of_readView
  · exact hsequences.imp fun _ _ => storesSequence_of_readSequence

end Snapshot

/-! ### The limit for columns -/

namespace Settings

/-- The limit that a value gives is positive. -/
def StoresLimit (d : Doc) (n : Int) : Prop :=
  0 < n ∧ d.Gives n

/-- How a value is refused where the limit is read: infinite numbers with a failure of their own,
and the others with a fault that names the source. -/
inductive RefusesLimit (source : String) (d : Doc) : Failure → Prop where
  | infinite (h : d.IsInfinite) : RefusesLimit source d .notFinite
  | fault (hfinite : ¬ d.IsInfinite) (hnone : ∀ n, ¬ d.Gives n) :
    RefusesLimit source d (Failure.settings (.invalidLimit d source)).told
  | notPositive {n : Int} (hgives : d.Gives n) (hle : n ≤ 0) :
    RefusesLimit source d (Failure.settings (.limitNotPositive n source)).told

/-- The value of the limit in the source that counts. -/
def givenLimit? (env : Environment) (explicit : Explicit) (d : Doc) : Option Doc :=
  if explicit.maxColumns = .null then
    ((env.lookup "SCHEMALINT_MAX_COLUMNS").map .text).or (d.get? "max_columns")
  else some explicit.maxColumns

/-- The limit of the settings is the one that is given, and the settings file gives no other kind of
value either. -/
structure LimitStored (env : Environment) (explicit : Explicit) (d : Doc) (s : Settings) :
    Prop where
  given : ∀ value, givenLimit? env explicit d = some value → StoresLimit value s.maxColumns
  default : givenLimit? env explicit d = none → s.maxColumns = 100
  file : ∀ value, d.get? "max_columns" = some value → ∃ n, StoresLimit value n

variable {d : Doc} {source : String} {n : Int} {f : Failure}

theorem readLimit_eq_ok_iff : readLimit source d = .ok n ↔ StoresLimit d n := by
  simp only [readLimit, bind_eq_ok_iff, Doc.readInteger_eq_ok_iff]
  constructor
  · rintro ⟨m, hm, h⟩
    split at h
    · next hpos =>
      obtain rfl := Except.ok.inj h
      exact ⟨hpos, hm⟩
    · cases h
  · rintro ⟨hpos, hn⟩
    exact ⟨n, hn, if_pos hpos⟩

theorem readLimit_eq_error_iff : readLimit source d = .error f ↔ RefusesLimit source d f := by
  refine eq_error_iff_of_total (fun n => readLimit_eq_ok_iff) ?_ ?_
  · rintro g (h | ⟨hfinite, hnone⟩ | ⟨hgives, hle⟩)
    · exact bind_eq_of_error (Doc.readInteger_of_isInfinite h)
    · exact bind_eq_of_error (Doc.readInteger_of_not_gives hfinite hnone)
    · rw [readLimit, bind_eq_of_ok (Doc.readInteger_eq_ok_iff.mpr hgives)]
      exact if_neg (not_lt.mpr hle)
  · by_cases hinfinite : d.IsInfinite
    · exact .inr ⟨_, .infinite hinfinite⟩
    · by_cases hgives : ∃ n, d.Gives n
      · obtain ⟨n, hn⟩ := hgives
        rcases lt_or_ge 0 n with hpos | hle
        · exact .inl ⟨n, hpos, hn⟩
        · exact .inr ⟨_, .notPositive hn hle⟩
      · exact .inr ⟨_, .fault hinfinite (not_exists.mp hgives)⟩

/-- The limit is the integer that a value stands for, if it is positive. Every other value is
refused with a fault. -/
def FaithfulLimit (source : String) (d : Doc) : Prop :=
  (∀ n, readLimit source d = .ok n ↔ 0 < n ∧ d.StandsFor n) ∧
    ((∀ n, ¬ (0 < n ∧ d.StandsFor n)) → ∃ fault, readLimit source d = .error (.settings fault))

/-- The values that are read faithfully as limits: no infinite number, no other one that is cut off
at a positive integer, and not `true`. What the fault shows of them can be written. -/
structure PlainLimit (d : Doc) : Prop where
  finite : ¬ d.IsInfinite
  notCut : ∀ n, d.CutTo n → n ≤ 0
  notTrue : d ≠ .bool true
  shown : ∀ n, d.Gives n → n ≤ 0 → Number.isWritable n = true
  written : (∀ n, ¬ d.Gives n) → d.isWritable = true

theorem told_settings_iff {g : SettingsFault} :
    (∃ fault, (Failure.settings g).told = .settings fault) ↔
      g.values.all Doc.isWritable = true := by
  refine ⟨fun ⟨fault, h⟩ => ?_, fun h => ⟨g, if_pos h⟩⟩
  unfold Failure.told at h
  split at h
  · assumption
  · cases h

theorem refusesLimit_settings_iff :
    (∃ fault, RefusesLimit source d (.settings fault)) ↔
      ¬ d.IsInfinite ∧ (∀ n, d.Gives n → n ≤ 0 ∧ Number.isWritable n = true) ∧
        ((∀ n, ¬ d.Gives n) → d.isWritable = true) := by
  have hinvalid : (∃ fault, (Failure.settings (.invalidLimit d source)).told = .settings fault) ↔
      d.isWritable = true := by
    rw [told_settings_iff]
    simp [SettingsFault.values]
  have hlow : ∀ n, (∃ fault, (Failure.settings (.limitNotPositive n source)).told =
      .settings fault) ↔ Number.isWritable n = true := by
    intro n
    rw [told_settings_iff]
    simp [SettingsFault.values, Doc.isWritable]
  constructor
  · rintro ⟨fault, h⟩
    generalize hfault : Failure.settings fault = f at h
    obtain _ | ⟨hfinite, hnone⟩ | @⟨n, hgives, hle⟩ := h
    · cases hfault
    · exact ⟨hfinite, fun n h => absurd h (hnone n), fun _ => hinvalid.mp ⟨fault, hfault.symm⟩⟩
    · refine ⟨fun h => ?_, fun m hm => ?_, fun hnone => absurd hgives (hnone n)⟩
      · exact h.not_gives hgives
      · obtain rfl := hgives.unique hm
        exact ⟨hle, (hlow n).mp ⟨fault, hfault.symm⟩⟩
  · rintro ⟨hfinite, hgives, hnone⟩
    by_cases h : ∃ n, d.Gives n
    · obtain ⟨n, hn⟩ := h
      obtain ⟨hle, hwritable⟩ := hgives n hn
      obtain ⟨fault, hfault⟩ := (hlow n).mpr hwritable
      exact ⟨fault, hfault ▸ .notPositive hn hle⟩
    · obtain ⟨fault, hfault⟩ := hinvalid.mpr (hnone (not_exists.mp h))
      exact ⟨fault, hfault ▸ .fault hfinite (not_exists.mp h)⟩

theorem faithfulLimit_iff : FaithfulLimit source d ↔ PlainLimit d := by
  simp only [FaithfulLimit, readLimit_eq_ok_iff, readLimit_eq_error_iff, refusesLimit_settings_iff]
  constructor
  · rintro ⟨hkept, hrefused⟩
    constructor
    · rintro ⟨negative, rfl⟩
      exact (hrefused fun n => nofun).1 ⟨negative, rfl⟩
    · intro n hcut
      by_contra hpos
      have hstands := ((hkept n).mp ⟨by omega, .inr (.inl hcut)⟩).2
      cases hcut
      cases hstands
    · rintro rfl
      cases ((hkept 1).mp ⟨by decide, .inr (.inr (.bool true))⟩).2
    -- the value gives this number and no other, so it has to be refused
    · intro n hn hle
      refine ((hrefused fun m hm => ?_).2.1 n hn).2
      obtain rfl := hn.unique (.inl hm.2)
      omega
    · exact fun hnone => (hrefused fun m hm => hnone m (.inl hm.2)).2.2 hnone
  · intro h
    have hkept : ∀ n, StoresLimit d n ↔ 0 < n ∧ d.StandsFor n := by
      refine fun n => ⟨?_, fun hn => ⟨hn.1, .inl hn.2⟩⟩
      rintro ⟨hpos, hn | hcut | hcounts⟩
      · exact ⟨hpos, hn⟩
      · exact absurd (h.notCut n hcut) (not_le.mpr hpos)
      -- `false` counts as zero, which is refused for not being positive
      · obtain ⟨b⟩ := hcounts
        cases b with
        | false => cases hpos
        | true => exact absurd rfl h.notTrue
    refine ⟨hkept, fun hnone => ⟨h.finite, fun n hn => ?_, h.written⟩⟩
    have hle : n ≤ 0 := not_lt.mp fun hpos => hnone n ((hkept n).mp ⟨hpos, hn⟩)
    exact ⟨hle, h.shown n hn hle⟩

/-- The sources of the limit together say what the value in the first of them does. -/
theorem limitSources_value (env : Environment) (explicit : Explicit) (d : Doc) :
    (limitSources env explicit d).value =
      ((givenLimit? env explicit d).map (readLimit "max_columns")).getD (.ok 100) := by
  unfold Sources.value limitSources sourcesOf givenLimit?
  split
  · cases env.lookup "SCHEMALINT_MAX_COLUMNS" <;> rfl
  · rfl

theorem limitStored_of_gather [Yaml.Library] {t : FileTree} {env : Environment}
    {explicit : Explicit} {s : Settings} (h : gather t env explicit = .ok s) :
    ∃ d, fileDocument t env explicit = .ok d ∧ LimitStored env explicit d s := by
  obtain ⟨d, hd, hsettled⟩ := settled_of_gather h
  obtain ⟨file, hfile, -⟩ := gather_spec h
  obtain ⟨d', hd', hread⟩ := fileSettings_spec hfile
  obtain rfl : d = d' := Except.ok.inj (hd.symm.trans hd')
  have hlimit := hsettled.maxColumns
  rw [limitSources_value] at hlimit
  refine ⟨d, hd, fun value hvalue => ?_, fun hnone => ?_, fun value hvalue => ?_⟩
  · rw [hvalue] at hlimit
    exact readLimit_eq_ok_iff.mp hlimit
  · rw [hnone] at hlimit
    exact (Except.ok.inj hlimit).symm
  · have hfield := readField_eq hread.maxColumns
    rw [hvalue] at hfield
    cases hcolumns : file.maxColumns with
    | none =>
      rw [hcolumns] at hfield
      cases hfield
    | some n =>
      rw [hcolumns] at hfield
      exact ⟨n, readLimit_eq_ok_iff.mp (Option.some.inj hfield)⟩

end Settings

/-! ### Snapshots and settings -/

open Snapshot Settings

/-- What becomes of a value where snapshots and settings have numbers. -/
structure NumberRead (value : Doc) : Prop where
  /-- A definition reads it faithfully if it can be written and is no floating-point number but the
  one that is no number. -/
  faithful : ∀ owner field, Faithful owner field value ↔
    value.isWritable = true ∧ ∀ x, value = .float x → x = .nan
  /-- Whether or not it does, it keeps the integer for which the value stands, or the one at which
  the value is cut off. -/
  stored : ∀ owner field n, Snapshot.readInteger owner field value = .ok n ↔ Stores value n
  /-- If there is none, the value is refused. -/
  refused : ∀ owner field f,
    (Snapshot.readInteger owner field value).mapError Failure.told = .error f ↔
      Refuses owner field value f
  /-- As a limit, only plain values are read faithfully. -/
  faithfulLimit : ∀ source, FaithfulLimit source value ↔ PlainLimit value
  /-- A limit is positive, and is the integer that the value gives. -/
  limit : ∀ source n, readLimit source value = .ok n ↔ StoresLimit value n
  /-- If there is none, the value is refused. -/
  limitRefused : ∀ source f, readLimit source value = .error f ↔ RefusesLimit source value f

/-- What becomes of the numbers of a snapshot, and of the limit of a run. -/
structure NumbersStored [Yaml.Library] (d : Doc) (t : FileTree) (env : Environment)
    (explicit : Explicit) : Prop where
  /-- A sequence is refused as the first of its numbers is. -/
  sequence : ∀ e name f, e.isMap = true → readName .sequence "name" e = .ok name →
    ((readSequence e).mapError Failure.told = .error f ↔
      RefusesFirst s!"Sequence '{name.text}'" (sequenceNumbers e) f)
  /-- A column that counts up is refused as the first of its numbers is. -/
  counting : ∀ column es f, column.isWritable = true →
    ((readAutoIncrement column (.map es)).mapError Failure.told = .error f ↔
      RefusesFirst s!"Column '{column.display}'" (countingNumbers (.map es)) f)
  /-- All numbers of an accepted snapshot are those that it gives. -/
  snapshot : ∀ db, readDatabase d = .ok db → StoresNumbers d db
  /-- The limit of a run that starts is the one that is given. -/
  settings : ∀ s, gather t env explicit = .ok s →
    ∃ d, fileDocument t env explicit = .ok d ∧ LimitStored env explicit d s

/-- **Numbers.** Where snapshots and settings have numbers, integers and texts that denote one are
kept as they are. Fractions are cut off, truth values count as limits, and infinite numbers fail in
a way of their own. Every other value is refused with a fault, as long as it can be written. -/
theorem numbers_read [Yaml.Library] (value d : Doc) (t : FileTree) (env : Environment)
    (explicit : Explicit) : NumberRead value ∧ NumbersStored d t env explicit := by
  refine ⟨?_, ?_⟩
  · exact {
      faithful := fun _ _ => faithful_iff
      stored := fun _ _ _ => Snapshot.readInteger_eq_ok_iff
      refused := fun _ _ _ => told_readInteger_iff
      faithfulLimit := fun _ => faithfulLimit_iff
      limit := fun _ _ => readLimit_eq_ok_iff
      limitRefused := fun _ _ => readLimit_eq_error_iff }
  · exact {
      sequence := fun _ _ _ hmap hname => (failAlike_readSequence hmap hname).told_iff
      counting := fun _ _ _ hwritable => (failAlike_readAutoIncrement hwritable).told_iff
      snapshot := fun _ => storesNumbers_of_readDatabase
      settings := fun _ => limitStored_of_gather }

/-- A snapshot with a sequence that starts with the given value. -/
def counterFrom (start : Doc) : Doc :=
  .map [(.text "sequences", .list [
    .map [(.text "name", .text "ticket"), (.text "start", start)]])]

/-- A text that denotes an integer starts the sequence with it, and is everywhere read faithfully.
-/
theorem counter_numbers :
    Faithful "counter" "start" (.text " +1_0 ") ∧ FaithfulLimit "limit" (.text " +1_0 ") ∧
      ∃ db, readDatabase (counterFrom (.text " +1_0 ")) = .ok db ∧
        db.sequences.map (·.start) = [10] ∧ StoresNumbers (counterFrom (.text " +1_0 ")) db := by
  obtain ⟨hread, hstored⟩ := numbers_read (.text " +1_0 ") (counterFrom (.text " +1_0 ")) ⟨[]⟩ [] {}
  have hten : (Doc.text " +1_0 ").Gives 10 :=
    (hread.limit "limit" 10).mp (by decide +kernel) |>.2
  refine ⟨(hread.faithful _ _).mpr ⟨rfl, nofun⟩, (hread.faithfulLimit _).mpr ?_, ?_⟩
  · exact {
      finite := fun ⟨_, h⟩ => nomatch h
      notCut := fun n h => nomatch h
      notTrue := nofun
      shown := fun n h hle => by
        obtain rfl := hten.unique h
        omega
      written := fun _ => rfl }
  · have hstart : ∃ db, readDatabase (counterFrom (.text " +1_0 ")) = .ok db ∧
        db.sequences.map (·.start) = [10] := by
      decide +kernel
    obtain ⟨db, hdb, hstart⟩ := hstart
    exact ⟨db, hdb, hstart, hstored.snapshot db hdb⟩

/-- Two and a half. -/
def twoAndAHalf : Doc :=
  .float (Binary64.ofDecimal false 25 (-1))

/-- A number beyond all others. -/
def infinity : Doc :=
  .float (.infinite false)

/-- No integer and no text is among three values, but two of them are kept, changed without a word,
and the third is refused without a fault. -/
theorem numbers_changed :
    (∀ d ∈ [twoAndAHalf, infinity, .bool true], ∀ n, ¬ d.StandsFor n) ∧
      (∃ db, readDatabase (counterFrom twoAndAHalf) = .ok db ∧
        db.sequences.map (·.start) = [2]) ∧
      readDatabase (counterFrom infinity) = .error .notFinite ∧
      readLimit "max_columns" twoAndAHalf = .ok 2 ∧
      readLimit "max_columns" (.bool true) = .ok 1 ∧
      readLimit "max_columns" infinity = .error .notFinite := by
  refine ⟨?_, by decide +kernel⟩
  intro d hd n hstands
  cases hstands <;> simp [twoAndAHalf, infinity] at hd

end SchemaAudit
