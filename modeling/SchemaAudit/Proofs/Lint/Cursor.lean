import Mathlib.Data.List.Basic
import SchemaAudit.Lint.Cursor

/-!
# What is ahead of a cursor

A cursor takes objects, skips runs and loses messages on its way. All that can be told from outside
is the list of messages that it would still give, `Cursor.ahead`; every law of the cursor is a law
of this list.

- `next_idle`, `next_cancelled`: a step takes the first message that is ahead, or ends everything.
- `drain_idle`: without cancellation all that is ahead is given.
- `Rule.evaluated`: what a rule gives about a collection when it is read on its own, and
  `evaluated_eq_messages`: these are the messages of the rule, also where the rule does not look at
  the kind of the collection at all.
-/

namespace SchemaAudit

/-- The messages among the events of a run. -/
def Event.messagesOf (es : List Event) : List Message :=
  es.filterMap Event.message?

namespace Cursor

/-- The messages that a cursor would still give. -/
def ahead (c : Cursor) : List Message :=
  c.runs.flatMap Event.messagesOf

theorem nextInRun_none {es : List Event} {n : Nat} :
    nextInRun es = (n, none) → Event.messagesOf es = [] := by
  induction es generalizing n with
  | nil => exact fun _ => rfl
  | cons e es ih =>
    cases e with
    | take =>
      intro h
      have hrest : nextInRun es = ((nextInRun es).1, none) := by
        rw [← (Prod.mk.inj h).2]
      exact ih hrest
    | found m => exact fun h => nomatch h

theorem nextInRun_some {es rest : List Event} {n : Nat} {m : Message} :
    nextInRun es = (n, some (m, rest)) → Event.messagesOf es = m :: Event.messagesOf rest := by
  induction es generalizing n with
  | nil => exact fun h => nomatch h
  | cons e es ih =>
    cases e with
    | take =>
      intro h
      have hrest : nextInRun es = ((nextInRun es).1, some (m, rest)) := by
        rw [← (Prod.mk.inj h).2]
      exact ih hrest
    | found m' =>
      rintro ⟨⟩
      rfl

/-- Without cancellation the first message ahead is taken, wherever it is. -/
theorem nextInRuns_idle (runs : List (List Event)) (taken : Nat) :
    (nextInRuns false taken runs).1 = (runs.flatMap Event.messagesOf).head? ∧
      (nextInRuns false taken runs).2.2.flatMap Event.messagesOf =
        (runs.flatMap Event.messagesOf).tail := by
  induction runs generalizing taken with
  | nil => exact ⟨rfl, rfl⟩
  | cons run runs ih =>
    rw [nextInRuns, List.flatMap_cons]
    split
    -- a run without messages is passed over, and the next one is asked
    · next n h =>
      rw [nextInRun_none h, List.nil_append]
      exact ih (taken + n)
    · next n m es h =>
      rw [nextInRun_some h]
      exact ⟨rfl, rfl⟩

/-- With cancellation every run ends before its next message. -/
theorem nextInRuns_cancelled (runs : List (List Event)) (taken : Nat) :
    (nextInRuns true taken runs).1 = none ∧ (nextInRuns true taken runs).2.2 = [] := by
  induction runs generalizing taken with
  | nil => exact ⟨rfl, rfl⟩
  | cons run runs ih =>
    rw [nextInRuns]
    split
    · next n _ => exact ih (taken + n)
    · next n m es _ => exact ih (taken + n)

theorem next_cancellable (cancelled : Bool) (c : Cursor) :
    (c.next cancelled).2.cancellable = c.cancellable := rfl

theorem next_idle {cancelled : Bool} {c : Cursor} (h : (cancelled && c.cancellable) = false) :
    (c.next cancelled).1 = c.ahead.head? ∧ (c.next cancelled).2.ahead = c.ahead.tail := by
  show (nextInRuns (cancelled && c.cancellable) c.taken c.runs).1 = _ ∧
    (nextInRuns (cancelled && c.cancellable) c.taken c.runs).2.2.flatMap Event.messagesOf = _
  rw [h]
  exact nextInRuns_idle c.runs c.taken

theorem next_cancelled {cancelled : Bool} {c : Cursor} (h : (cancelled && c.cancellable) = true) :
    (c.next cancelled).1 = none ∧ (c.next cancelled).2.ahead = [] := by
  show (nextInRuns (cancelled && c.cancellable) c.taken c.runs).1 = _ ∧
    (nextInRuns (cancelled && c.cancellable) c.taken c.runs).2.2.flatMap Event.messagesOf = _
  rw [h]
  obtain ⟨hnone, hruns⟩ := nextInRuns_cancelled c.runs c.taken
  rw [hruns]
  exact ⟨hnone, rfl⟩

/-! ### Reading to the end -/

theorem ahead_length_le (c : Cursor) : c.ahead.length ≤ c.eventCount := by
  unfold ahead eventCount
  induction c.runs with
  | nil => exact Nat.le_refl 0
  | cons run runs ih =>
    rw [List.flatMap_cons, List.length_append, List.flatten_cons, List.length_append]
    exact Nat.add_le_add (List.length_filterMap_le _ _) ih

theorem takeMessages_idle (limit : Nat) (c : Cursor) (h : c.ahead.length < limit) :
    (takeMessages false limit c).1 = c.ahead := by
  -- every message that is taken shortens what is ahead, so the limit is not reached
  induction limit generalizing c with
  | zero => exact absurd h (Nat.not_lt_zero _)
  | succ limit ih =>
    obtain ⟨hfirst, hrest⟩ := next_idle (c := c) (Bool.false_and _)
    rw [takeMessages]
    cases hahead : c.ahead with
    | nil =>
      rw [hahead, List.head?_nil] at hfirst
      split
      · rfl
      · next m c' hnext => rw [hnext] at hfirst; cases hfirst
    | cons m ms =>
      rw [hahead, List.head?_cons] at hfirst
      rw [hahead, List.tail_cons] at hrest
      split
      · next c' hnext => rw [hnext] at hfirst; cases hfirst
      · next m' c' hnext =>
        rw [hnext] at hfirst hrest
        obtain rfl := Option.some.inj hfirst
        have hshorter : c'.ahead.length < limit := by
          rw [hahead, List.length_cons] at h
          rw [show c'.ahead = ms from hrest]
          omega
        show m' :: (takeMessages false limit c').1 = m' :: ms
        rw [ih c' hshorter, show c'.ahead = ms from hrest]

theorem drain_idle (c : Cursor) : (c.drain false).1 = c.ahead :=
  takeMessages_idle _ c (Nat.lt_succ_of_le c.ahead_length_le)

end Cursor

/-! ### One rule on its own -/

/-- The messages that a rule gives about a collection when it is read on its own to the end. -/
def Rule.evaluated (r : Rule) (c : Collection) : List Message :=
  ((Cursor.overRule r c).drain false).1

theorem messagesOf_takes (n : Nat) : Event.messagesOf (List.replicate n .take) = [] := by
  induction n with
  | zero => rfl
  | succ n ih => exact ih

theorem messagesOf_found {α : Type} (f : α → Message) (as : List α) :
    Event.messagesOf (as.map fun a => .found (f a)) = as.map f := by
  induction as with
  | nil => rfl
  | cons a as ih => exact congrArg (f a :: ·) ih

theorem messagesOf_append (es fs : List Event) :
    Event.messagesOf (es ++ fs) = Event.messagesOf es ++ Event.messagesOf fs :=
  List.filterMap_append

/-- The messages about objects taken one by one. -/
theorem messagesOf_each (f : Finding → Message) (found : List (List Finding)) :
    Event.messagesOf (found.flatMap fun fs => .take :: fs.map fun a => .found (f a)) =
      found.flatten.map f := by
  induction found with
  | nil => rfl
  | cons fs found ih =>
    rw [List.flatMap_cons, messagesOf_append, List.flatten_cons, List.map_append, ih]
    show Event.messagesOf (fs.map fun a => .found (f a)) ++ _ = _
    rw [messagesOf_found]

namespace Inspection

/-- Only tables are looked at together. -/
theorem findings_of_ne {i : Inspection} {c : Collection} (h : c.kind ≠ .table) :
    i.findings c = (i.each c).flatten := by
  have hjoint : i.joint? c = none := by
    unfold joint?
    split
    · exact absurd rfl h
    · exact absurd rfl h
    · rfl
  rw [findings, hjoint]

/-- Two inspections look at all tables together, and every other one at each table by itself. -/
theorem findings_tables {i : Inspection} (hmissing : i ≠ .foreignKeyMissing)
    (hcycle : i ≠ .foreignKeyRelationshipCycle) (ts : List Table) :
    i.findings (.tables ts) = ts.flatMap fun u => (i.ofTable u).map fun text => (u.name, text) := by
  have hjoint : i.joint? (.tables ts) = none := by
    unfold joint?
    split
    · exact absurd rfl hmissing
    · exact absurd rfl hcycle
    · rfl
  rw [findings, hjoint, List.flatMap_def]
  rfl

/-- What an inspection finds is empty where it does not look. -/
theorem findings_of_unsupported {i : Inspection} {c : Collection}
    (h : i.supports c.kind = false) : i.findings c = [] := by
  have hproblem : c.kind ≠ .table ∧ i.nameProblem? = none := by
    rw [supports, Bool.or_eq_false_iff] at h
    exact ⟨by simpa using h.1, by simpa using h.2⟩
  obtain ⟨hkind, hnone⟩ := hproblem
  rw [findings_of_ne hkind]
  refine List.flatten_eq_nil_iff.mpr fun fs hfs => ?_
  -- only inspections of names look at anything but tables, and this is not one of them
  cases c with
  | tables ts => exact absurd rfl hkind
  | views vs =>
    obtain ⟨v, -, rfl⟩ := List.mem_map.mp hfs
    rw [ofView, hnone, List.map_nil]
  | sequences ss =>
    obtain ⟨s, -, rfl⟩ := List.mem_map.mp hfs
    rw [ofName, hnone, List.map_nil]
  | synonyms ss =>
    obtain ⟨s, -, rfl⟩ := List.mem_map.mp hfs
    rw [ofName, hnone, List.map_nil]
  | routines rs =>
    obtain ⟨r, -, rfl⟩ := List.mem_map.mp hfs
    rw [ofName, hnone, List.map_nil]

end Inspection

/-- **One rule on its own.** Whether a rule takes the objects one by one, all of them first or none
of them, it gives its messages about the collection. -/
theorem evaluated_eq_messages (r : Rule) (c : Collection) : r.evaluated c = r.messages c := by
  rw [Rule.evaluated, Cursor.drain_idle]
  show List.flatMap Event.messagesOf [r.events c] = _
  rw [List.flatMap_singleton, Rule.events, Rule.messages]
  by_cases h : r.inspection.supports c.kind = true
  · rw [if_pos h, Inspection.findings]
    cases hjoint : r.inspection.joint? c with
    | some fs =>
      show Event.messagesOf (_ ++ fs.map fun f => .found (r.message f)) = fs.map r.message
      rw [messagesOf_append, messagesOf_takes, messagesOf_found, List.nil_append]
    | none => exact messagesOf_each r.message _
  · rw [if_neg h, Inspection.findings_of_unsupported (Bool.eq_false_iff.mpr h)]
    rfl

/-- Asking only the rules that look at the kind leaves no message out. -/
theorem lintCollection_eq_flatMap (rules : List Rule) (c : Collection) :
    lintCollection rules c = rules.flatMap (·.messages c) := by
  rw [lintCollection]
  induction rules with
  | nil => rfl
  | cons r rules ih =>
    rw [List.filter_cons, List.flatMap_cons, ← ih]
    by_cases h : r.inspection.supports c.kind = true
    · rw [if_pos h, List.flatMap_cons]
    · have hmessages : r.messages c = [] := by
        rw [Rule.messages, Inspection.findings_of_unsupported (Bool.eq_false_iff.mpr h),
          List.map_nil]
      rw [if_neg h, hmessages, List.nil_append]

/-- The messages of several rules about a collection are those that each gives on its own. -/
theorem lintCollection_eq_evaluated (rules : List Rule) (c : Collection) :
    lintCollection rules c = rules.flatMap (·.evaluated c) := by
  have hrule : (fun r : Rule => r.evaluated c) = fun r => r.messages c := by
    funext r
    exact evaluated_eq_messages r c
  rw [hrule, lintCollection_eq_flatMap]

namespace Cursor

theorem ahead_overCollection (rules : List Rule) (c : Collection) (cancellable : Bool) :
    (overCollection rules c cancellable).ahead = rules.flatMap (·.evaluated c) := by
  show List.flatMap Event.messagesOf [lintEvents rules c] = _
  rw [List.flatMap_singleton, lintEvents, messagesOf_append, messagesOf_takes, List.nil_append]
  rw [← lintCollection_eq_evaluated]
  exact (messagesOf_found id _).trans (List.map_id _)

theorem ahead_overDatabase (rules : List Rule) (d : Database) (cancellable : Bool) :
    (overDatabase rules d cancellable).ahead =
      d.collections.flatMap fun c => rules.flatMap (·.evaluated c) := by
  show (d.collections.map fun c => (lintCollection rules c).map Event.found).flatMap
    Event.messagesOf = _
  rw [List.flatMap_map]
  congr 1
  funext c
  rw [← lintCollection_eq_evaluated]
  exact (messagesOf_found id _).trans (List.map_id _)

end Cursor

end SchemaAudit
