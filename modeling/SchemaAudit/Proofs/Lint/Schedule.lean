import Mathlib.Logic.Function.Basic
import SchemaAudit.Lint.Session
import SchemaAudit.Proofs.Lint.Cursor

/-!
# Schedules of a session

Several iterators over messages are open at once and are moved in any order, and the reading is
cancelled and resumed in between. What an iterator gives does not depend on the others:

- `Session.Step`, `Watched.run`: the steps of a schedule, and a session with a record of what every
  open iterator has given (`Reading`).
- `Follows`: the invariant that ties a cursor to its record. What was given and what is ahead are
  together all that was expected.
- `schedule_readings`: the main statement, for every schedule.
-/

namespace SchemaAudit

namespace Session

/-- What the holder of a linter can do. -/
inductive Step where
  /-- Takes another database for the iterators that are opened from now on. -/
  | use (d : Database)
  /-- Opens an iterator over all kinds of objects. -/
  | openDatabase (name : String)
  /-- Opens an iterator over the objects of one kind. -/
  | openKind (name : String) (k : ObjectKind)
  /-- Asks an iterator for its next message. -/
  | next (name : String)
  | cancel
  | resume

/-- Whether a step opens an iterator under the name. -/
def Step.opens (name : String) : Step → Bool
  | openDatabase n => n == name
  | openKind n _ => n == name
  | _ => false

end Session

/-! ### What is known of iterators -/

/-- What is known of an iterator since it was opened: the messages that it gives if nothing is
cancelled, those that it has given, and whether it has said that there are no more. -/
structure Reading where
  expected : List Message
  given : List Message := []
  ended : Bool := false
  deriving DecidableEq, Repr

/-- All messages about several collections: collection by collection, and within one rule by rule,
what each rule gives on its own. -/
def expectedMessages (rules : List Rule) (cs : List Collection) : List Message :=
  cs.flatMap fun c => rules.flatMap (·.evaluated c)

/-- Notes an answer. -/
def Reading.note (r : Reading) : Option Message → Reading
  | some m => { r with given := r.given ++ [m] }
  | none => { r with ended := true }

/-- A session, and what is known of its open iterators. -/
structure Watched where
  session : Session
  readings : String → Option Reading

namespace Watched

/-- A session in which nothing is open yet. -/
def start (rules : List Rule) (d : Database) (cancellable : Bool) : Watched :=
  ⟨{ database := d, rules, cancellable }, fun _ => none⟩

/-- Opens an iterator of the linter, of which the given messages are expected. -/
def openReading (w : Watched) (name : String) (q : Query) (cs : List Collection) : Watched :=
  match w.session.open? name .linter q .everything with
  | .ok s =>
    ⟨s, Function.update w.readings name (some { expected := expectedMessages w.session.rules cs })⟩
  | .error _ => w

/-- The answer of an iterator that is asked for its next message, if there is one of this name. -/
def answer (w : Watched) (name : String) : Option (Option Message) :=
  (w.session.next name).map (·.1)

def step (w : Watched) : Session.Step → Watched
  | .use d => { w with session := { w.session with database := d } }
  | .openDatabase name => w.openReading name .database w.session.database.collections
  | .openKind name k => w.openReading name (.kind k) [w.session.database.collection k]
  | .next name =>
    match w.session.next name with
    | some (m, _, s) => ⟨s, Function.update w.readings name ((w.readings name).map (·.note m))⟩
    | none => w
  | .cancel => { w with session := { w.session with cancelled := true } }
  | .resume => { w with session := { w.session with cancelled := false } }

/-- The session after a schedule. -/
def run (w : Watched) (steps : List Session.Step) : Watched :=
  steps.foldl step w

end Watched

/-! ### Cursors by name -/

/-- A session with a cursor under a name, in place of an earlier one. -/
def Session.withCursor (s : Session) (name : String) (c : Cursor) : Session :=
  { s with cursors := (name, c) :: s.cursors.filter fun e => e.1 != name }

theorem lookup_cons_self {name : String} {c : Cursor} {cs : List (String × Cursor)} :
    ((name, c) :: cs).lookup name = some c := by
  rw [List.lookup_cons, beq_self_eq_true]

theorem lookup_cons_other {n name : String} {c : Cursor} {cs : List (String × Cursor)}
    (h : name ≠ n) : ((n, c) :: cs).lookup name = cs.lookup name := by
  rw [List.lookup_cons, beq_eq_false_iff_ne.mpr h]

theorem lookup_advance_self {cs : List (String × Cursor)} {name : String} {c d : Cursor}
    (h : cs.lookup name = some c) :
    (cs.map fun e => if e.1 == name then (name, d) else e).lookup name = some d := by
  induction cs with
  | nil => cases h
  | cons e cs ih =>
    obtain ⟨n, c'⟩ := e
    rw [List.map_cons]
    by_cases hn : n = name
    · rw [if_pos (beq_iff_eq.mpr hn), lookup_cons_self]
    · rw [lookup_cons_other (Ne.symm hn)] at h
      rw [if_neg (fun heq => hn (eq_of_beq heq)), lookup_cons_other (Ne.symm hn)]
      exact ih h

theorem lookup_advance_other {cs : List (String × Cursor)} {name other : String} {d : Cursor}
    (h : other ≠ name) :
    (cs.map fun e => if e.1 == name then (name, d) else e).lookup other = cs.lookup other := by
  induction cs with
  | nil => rfl
  | cons e cs ih =>
    obtain ⟨n, c⟩ := e
    rw [List.map_cons]
    by_cases hn : n = name
    · subst hn
      rw [if_pos (beq_self_eq_true n), lookup_cons_other h, lookup_cons_other h, ih]
    · rw [if_neg (fun heq => hn (eq_of_beq heq)), List.lookup_cons, List.lookup_cons, ih]

theorem lookup_filter_other {cs : List (String × Cursor)} {name other : String}
    (h : other ≠ name) : (cs.filter fun e => e.1 != name).lookup other = cs.lookup other := by
  induction cs with
  | nil => rfl
  | cons e cs ih =>
    obtain ⟨n, c⟩ := e
    by_cases hn : n = name
    · subst hn
      rw [List.filter_cons_of_neg (by simp), ih, lookup_cons_other h]
    · rw [List.filter_cons_of_pos (by simpa using hn), List.lookup_cons, List.lookup_cons, ih]

/-! ### The invariant -/

/-- A cursor follows a reading: before the end, what was given and what is ahead are together all
that was expected; after it, nothing is ahead. -/
structure Follows (cancellable : Bool) (c : Cursor) (r : Reading) : Prop where
  cancellable : c.cancellable = cancellable
  given : r.given <+: r.expected
  ahead : if r.ended then c.ahead = [] else r.expected = r.given ++ c.ahead

/-- One step of a cursor keeps it with its reading. -/
theorem Follows.next {cancellable : Bool} {c : Cursor} {r : Reading}
    (h : Follows cancellable c r) (cancelled : Bool) :
    Follows cancellable (c.next cancelled).2 (r.note (c.next cancelled).1) := by
  have hkeeps := (Cursor.next_cancellable cancelled c).trans h.cancellable
  by_cases hcancel : (cancelled && c.cancellable) = true
  · obtain ⟨hnone, hahead⟩ := Cursor.next_cancelled hcancel
    rw [hnone]
    exact ⟨hkeeps, h.given, hahead⟩
  · obtain ⟨hfirst, hrest⟩ := Cursor.next_idle (Bool.eq_false_iff.mpr hcancel)
    rw [hfirst]
    have hahead := h.ahead
    cases hmessages : c.ahead with
    | nil =>
      rw [hmessages] at hrest
      exact ⟨hkeeps, h.given, hrest⟩
    | cons m ms =>
      rw [hmessages] at hrest hahead
      -- an ended reading has nothing ahead, so this one has not ended
      have hlive : r.ended = false := by
        cases hended : r.ended with
        | false => rfl
        | true =>
          rw [hended, if_pos rfl] at hahead
          cases hahead
      rw [hlive, if_neg Bool.false_ne_true] at hahead
      have hall : r.expected = (r.given ++ [m]) ++ ms := by
        rw [hahead, List.append_assoc, List.singleton_append]
      refine ⟨hkeeps, ⟨ms, hall.symm⟩, ?_⟩
      show if r.ended then _ else r.expected = (r.given ++ [m]) ++ (c.next cancelled).2.ahead
      rw [hlive, if_neg Bool.false_ne_true, hrest]
      exact hall

/-- The answer of a cursor that follows a reading. -/
theorem Follows.answer {cancellable : Bool} {c : Cursor} {r : Reading}
    (h : Follows cancellable c r) (cancelled : Bool) :
    (c.next cancelled).1 =
      if (cancelled && cancellable) || r.ended then none else r.expected[r.given.length]? := by
  have hahead := h.ahead
  by_cases hcancel : (cancelled && c.cancellable) = true
  · rw [(Cursor.next_cancelled hcancel).1, ← h.cancellable, hcancel]
    rfl
  · rw [(Cursor.next_idle (Bool.eq_false_iff.mpr hcancel)).1, ← h.cancellable,
      Bool.eq_false_iff.mpr hcancel, Bool.false_or]
    by_cases hended : r.ended = true
    · rw [if_pos hended] at hahead
      rw [hahead, if_pos hended]
      rfl
    · rw [if_neg hended] at hahead
      rw [if_neg hended, hahead, List.getElem?_append_right (Nat.le_refl _), Nat.sub_self,
        List.head?_eq_getElem?]

namespace Watched

/-- The invariant of a session: every reading is followed by the cursor of its name. -/
structure Sound (rules : List Rule) (cancellable : Bool) (w : Watched) : Prop where
  rules_eq : w.session.rules = rules
  cancellable_eq : w.session.cancellable = cancellable
  readings : ∀ name r, w.readings name = some r →
    ∃ c, w.session.cursors.lookup name = some c ∧ Follows cancellable c r

variable {rules : List Rule} {cancellable : Bool} {w : Watched}

/-- The two ways of opening an iterator never fail, and all that is expected is ahead. -/
theorem openReading_spec (h : Sound rules cancellable w) {name : String} {q : Query}
    {cs : List Collection} {c : Cursor}
    (hopen : w.session.open? name .linter q .everything = .ok (w.session.withCursor name c))
    (hcancellable : c.cancellable = w.session.cancellable)
    (hahead : c.ahead = expectedMessages w.session.rules cs) :
    Sound rules cancellable (w.openReading name q cs) ∧
      (w.openReading name q cs).readings name = some { expected := expectedMessages rules cs } := by
  have heq : w.openReading name q cs =
      ⟨w.session.withCursor name c,
        Function.update w.readings name (some { expected := expectedMessages rules cs })⟩ := by
    rw [openReading, hopen, h.rules_eq]
  rw [heq]
  refine ⟨⟨h.rules_eq, h.cancellable_eq, ?_⟩, Function.update_self ..⟩
  intro n r hr
  replace hr : Function.update w.readings name
    (some { expected := expectedMessages rules cs }) n = some r := hr
  by_cases hn : n = name
  · subst hn
    rw [Function.update_self] at hr
    obtain rfl := Option.some.inj hr
    rw [h.rules_eq] at hahead
    exact ⟨c, lookup_cons_self, hcancellable.trans h.cancellable_eq, List.nil_prefix, hahead.symm⟩
  · rw [Function.update_of_ne hn] at hr
    obtain ⟨d, hd, hfollows⟩ := h.readings n r hr
    refine ⟨d, ?_, hfollows⟩
    rw [Session.withCursor, lookup_cons_other hn, lookup_filter_other hn, hd]

theorem openDatabase_spec (h : Sound rules cancellable w) (name : String) :
    Sound rules cancellable (w.step (.openDatabase name)) ∧
      (w.step (.openDatabase name)).readings name =
        some { expected := expectedMessages rules w.session.database.collections } := by
  have hopen : w.session.open? name .linter .database .everything = .ok (w.session.withCursor name
      (.overDatabase w.session.rules w.session.database w.session.cancellable)) := rfl
  exact openReading_spec h hopen rfl (Cursor.ahead_overDatabase ..)

theorem openKind_spec (h : Sound rules cancellable w) (name : String) (k : ObjectKind) :
    Sound rules cancellable (w.step (.openKind name k)) ∧
      (w.step (.openKind name k)).readings name =
        some { expected := expectedMessages rules [w.session.database.collection k] } := by
  have hopen : w.session.open? name .linter (.kind k) .everything = .ok (w.session.withCursor name
      (.overCollection w.session.rules (w.session.database.collection k) w.session.cancellable)) :=
    rfl
  refine openReading_spec h hopen rfl ?_
  rw [Cursor.ahead_overCollection, expectedMessages, List.flatMap_singleton]

/-- Asking one iterator leaves every other one as it is. -/
theorem next_spec (h : Sound rules cancellable w) (name : String) :
    Sound rules cancellable (w.step (.next name)) := by
  rw [step]
  cases hlookup : w.session.cursors.lookup name with
  | none =>
    have hnext : w.session.next name = none := by rw [Session.next, hlookup]; rfl
    rw [hnext]
    exact h
  | some c =>
    have hnext : w.session.next name = some ((c.next w.session.cancelled).1,
        (c.next w.session.cancelled).2.taken,
        w.session.advance name (c.next w.session.cancelled).2
          (c.next w.session.cancelled).1.toList) := by rw [Session.next, hlookup]; rfl
    rw [hnext]
    refine ⟨h.rules_eq, h.cancellable_eq, ?_⟩
    intro n r hr
    replace hr : Function.update w.readings name
      ((w.readings name).map (·.note (c.next w.session.cancelled).1)) n = some r := hr
    -- the asked iterator goes on with its reading, and every other one keeps its own
    by_cases hn : n = name
    · subst hn
      rw [Function.update_self] at hr
      obtain ⟨r', hr', rfl⟩ := Option.map_eq_some_iff.mp hr
      obtain ⟨d, hd, hfollows⟩ := h.readings n r' hr'
      obtain rfl := Option.some.inj (hlookup.symm.trans hd)
      exact ⟨_, lookup_advance_self hlookup, hfollows.next w.session.cancelled⟩
    · rw [Function.update_of_ne hn] at hr
      obtain ⟨d, hd, hfollows⟩ := h.readings n r hr
      refine ⟨d, ?_, hfollows⟩
      exact (lookup_advance_other hn).trans hd

/-- One step of a schedule keeps the invariant. -/
theorem Sound.step (h : Sound rules cancellable w) (s : Session.Step) :
    Sound rules cancellable (w.step s) := by
  cases s with
  | use d => exact ⟨h.rules_eq, h.cancellable_eq, h.readings⟩
  | openDatabase name => exact (openDatabase_spec h name).1
  | openKind name k => exact (openKind_spec h name k).1
  | next name => exact next_spec h name
  | cancel => exact ⟨h.rules_eq, h.cancellable_eq, h.readings⟩
  | resume => exact ⟨h.rules_eq, h.cancellable_eq, h.readings⟩

/-- A whole schedule keeps the invariant. -/
theorem Sound.run (h : Sound rules cancellable w) (steps : List Session.Step) :
    Sound rules cancellable (w.run steps) := by
  induction steps generalizing w with
  | nil => exact h
  | cons s steps ih => exact ih (h.step s)

theorem sound_start (rules : List Rule) (d : Database) (cancellable : Bool) :
    Sound rules cancellable (start rules d cancellable) :=
  ⟨rfl, rfl, fun _ _ hr => nomatch hr⟩

/-! ### Answers -/

/-- The answer of an iterator depends on what it has given itself, and on whether reading is
cancelled now. -/
theorem answer_eq (h : Sound rules cancellable w) {name : String} {r : Reading}
    (hr : w.readings name = some r) :
    w.answer name = some (if (w.session.cancelled && cancellable) || r.ended then none
      else r.expected[r.given.length]?) := by
  obtain ⟨c, hc, hfollows⟩ := h.readings name r hr
  rw [← hfollows.answer, answer, Session.next, hc]
  rfl

/-- The answer of an iterator is noted. -/
theorem readings_next {name : String} {r : Reading} {a : Option Message}
    (hr : w.readings name = some r) (ha : w.answer name = some a) :
    (w.step (.next name)).readings name = some (r.note a) := by
  obtain ⟨⟨m, taken, s⟩, hnext, rfl⟩ := Option.map_eq_some_iff.mp ha
  rw [step, hnext]
  show Function.update w.readings name ((w.readings name).map (·.note m)) name = _
  rw [Function.update_self, hr]
  rfl

theorem readings_openReading_other {name n : String} (hn : name ≠ n) (q : Query)
    (cs : List Collection) : (w.openReading n q cs).readings name = w.readings name := by
  rw [openReading]
  split
  · exact Function.update_of_ne hn _ _
  · rfl

theorem readings_next_other {name n : String} (hn : name ≠ n) :
    (w.step (.next n)).readings name = w.readings name := by
  rw [step]
  split
  · exact Function.update_of_ne hn _ _
  · rfl

/-! ### The end of an iterator -/

/-- The iterator of a name has said that there are no more messages. -/
def Ended (w : Watched) (name : String) : Prop :=
  ∃ r, w.readings name = some r ∧ r.ended = true

theorem note_ended {r : Reading} (h : r.ended = true) (a : Option Message) :
    (r.note a).ended = true := by
  cases a with
  | none => rfl
  | some m => exact h

/-- Only opening another iterator under the name brings messages back. -/
theorem Ended.step {name : String} (h : Ended w name) {s : Session.Step}
    (hs : s.opens name = false) : Ended (w.step s) name := by
  obtain ⟨r, hr, hended⟩ := h
  cases s with
  | use d => exact ⟨r, hr, hended⟩
  | openDatabase n =>
    have hn : name ≠ n := fun heq => beq_eq_false_iff_ne.mp hs heq.symm
    refine ⟨r, ?_, hended⟩
    rw [Watched.step, readings_openReading_other hn, hr]
  | openKind n k =>
    have hn : name ≠ n := fun heq => beq_eq_false_iff_ne.mp hs heq.symm
    refine ⟨r, ?_, hended⟩
    rw [Watched.step, readings_openReading_other hn, hr]
  | next n =>
    by_cases hn : name = n
    · subst hn
      cases ha : w.answer name with
      | none =>
        have hnext : w.session.next name = none := Option.map_eq_none_iff.mp ha
        refine ⟨r, ?_, hended⟩
        rw [Watched.step, hnext]
        exact hr
      | some a => exact ⟨r.note a, readings_next hr ha, note_ended hended a⟩
    · exact ⟨r, (readings_next_other hn).trans hr, hended⟩
  | cancel => exact ⟨r, hr, hended⟩
  | resume => exact ⟨r, hr, hended⟩

theorem Ended.run {name : String} (h : Ended w name) {steps : List Session.Step}
    (hsteps : ∀ s ∈ steps, s.opens name = false) : Ended (w.run steps) name := by
  induction steps generalizing w with
  | nil => exact h
  | cons s steps ih =>
    rw [List.forall_mem_cons] at hsteps
    exact ih (h.step hsteps.1) hsteps.2

/-- An iterator that has ended has no answer but the end. -/
theorem Ended.answer (hsound : Sound rules cancellable w) {name : String} (h : Ended w name) :
    w.answer name = some none := by
  obtain ⟨r, hr, hended⟩ := h
  rw [answer_eq hsound hr, hended, Bool.or_true, if_pos rfl]

/-- An iterator that is asked while reading is cancelled ends, and so does one that has ended
already. -/
theorem ended_next (h : Sound rules cancellable w) {name : String} {r : Reading}
    (hr : w.readings name = some r)
    (hend : (w.session.cancelled && cancellable) = true ∨ r.ended = true) :
    w.answer name = some none ∧ Ended (w.step (.next name)) name := by
  have hanswer : w.answer name = some none := by
    rw [answer_eq h hr, if_pos (Bool.or_eq_true_iff.mpr hend)]
  exact ⟨hanswer, _, readings_next hr hanswer, rfl⟩

end Watched

/-- **What an iterator gives, whatever happens to the others.** After every schedule:
an iterator can be opened, and what is then expected is what each rule gives on its own, kind by
kind. Every open iterator has given the first messages of those that are expected. Asked while
nothing is cancelled, it gives the next one. Asked while reading is cancelled, it gives nothing, and
has ended for good. -/
theorem schedule_readings (rules : List Rule) (d : Database) (cancellable : Bool)
    (steps : List Session.Step) :
    let w := (Watched.start rules d cancellable).run steps
    (∀ name,
      (w.step (.openDatabase name)).readings name =
        some { expected := expectedMessages rules w.session.database.collections } ∧
      ∀ k, (w.step (.openKind name k)).readings name =
        some { expected := expectedMessages rules [w.session.database.collection k] }) ∧
    ∀ name r, w.readings name = some r →
      r.given <+: r.expected ∧
      ((w.session.cancelled && cancellable) = false → r.ended = false →
        w.answer name = some r.expected[r.given.length]?) ∧
      ((w.session.cancelled && cancellable) = true ∨ r.ended = true →
        w.answer name = some none ∧
        ∀ later, (∀ s ∈ later, s.opens name = false) →
          ((w.step (.next name)).run later).answer name = some none) := by
  intro w
  have hsound : Watched.Sound rules cancellable w :=
    (Watched.sound_start rules d cancellable).run steps
  refine ⟨fun name => ⟨(Watched.openDatabase_spec hsound name).2,
    fun k => (Watched.openKind_spec hsound name k).2⟩, ?_⟩
  intro name r hr
  refine ⟨?_, ?_, ?_⟩
  · obtain ⟨c, -, hfollows⟩ := hsound.readings name r hr
    exact hfollows.given
  · intro hidle hlive
    rw [Watched.answer_eq hsound hr, hidle, hlive]
    rfl
  · intro hend
    obtain ⟨hanswer, hended⟩ := Watched.ended_next hsound hr hend
    refine ⟨hanswer, fun later hlater => ?_⟩
    exact (hended.run hlater).answer ((hsound.step _).run later)

/-- Cancellation in the middle of the tables, with views still to come. -/
theorem interrupted_reading :
    let rules := [⟨.whitespaceName, .warning⟩, ⟨.orphanedTable, .error⟩]
    let d : Database := { tables := [{ name := .bare "t " }], views := [{ name := .bare "v " }] }
    let w := (Watched.start rules d true).run
      [.openDatabase "all", .openKind "views" .view, .next "all", .cancel]
    ∃ r, w.readings "all" = some r ∧ (r.given.length, r.expected.length) = (1, 3) ∧
      r.given <+: r.expected ∧ w.answer "all" = some none ∧
      ((w.step (.next "all")).run [.resume, .next "views"]).answer "all" = some none := by
  intro rules d w
  have hw := (schedule_readings rules d true
    [.openDatabase "all", .openKind "views" .view, .next "all", .cancel]).2 "all" _ rfl
  obtain ⟨hanswer, hlater⟩ := hw.2.2 (.inl rfl)
  refine ⟨_, rfl, by decide +kernel, hw.1, hanswer, hlater [.resume, .next "views"] ?_⟩
  decide

end SchemaAudit
