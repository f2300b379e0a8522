import SchemaAudit.Lint.Rule

/-!
# Reading messages one by one

Whoever wants only the first messages need not wait for the last: a `Cursor` holds what is still
ahead, and each step looks at as many objects as the next message needs. What is ahead is a list of
runs, each a list of events; a run ends for good when a step of it would give a message and the
cursor is told that the reading is cancelled.
-/

namespace SchemaAudit

/-- What happens on the way to the next message. -/
inductive Event where
  /-- The next object of the collection is taken. -/
  | take
  /-- A message is found. -/
  | found (m : Message)
  deriving DecidableEq, Repr

/-- The messages among events. -/
def Event.message? : Event → Option Message
  | take => none
  | found m => some m

/-- What happens while a rule looks at a collection: it takes the objects one by one, or all of them
first if it looks at them together. A rule takes nothing of a kind that it does not look at. -/
def Rule.events (r : Rule) (c : Collection) : List Event :=
  if r.inspection.supports c.kind then
    match r.inspection.joint? c with
    | some fs => List.replicate c.size .take ++ fs.map fun f => .found (r.message f)
    | none => (r.inspection.each c).flatMap fun fs => .take :: fs.map fun f => .found (r.message f)
  else []

/-- What happens while several rules look at a collection: all objects are taken first. -/
def lintEvents (rules : List Rule) (c : Collection) : List Event :=
  List.replicate c.size .take ++ (lintCollection rules c).map .found

/-- What is ahead of a reader, and the number of objects taken so far. -/
structure Cursor where
  runs : List (List Event)
  taken : Nat := 0
  /-- Whether the reading can be cancelled. -/
  cancellable : Bool := false
  deriving DecidableEq, Repr

namespace Cursor

/-- Over the messages of a rule about a collection. -/
def overRule (r : Rule) (c : Collection) : Cursor :=
  { runs := [r.events c] }

/-- Over the messages of a rule about each object by itself, whose objects are not counted. -/
def overObjects (r : Rule) (c : Collection) : Cursor :=
  { runs := [((r.inspection.each c).flatten).map fun f => .found (r.message f)] }

/-- Over the messages of several rules about a collection. -/
def overCollection (rules : List Rule) (c : Collection) (cancellable : Bool) : Cursor :=
  { runs := [lintEvents rules c], cancellable }

/-- Over the messages of several rules about a database, one run for each kind. Objects are not
counted. -/
def overDatabase (rules : List Rule) (d : Database) (cancellable : Bool) : Cursor :=
  { runs := d.collections.map fun c => (lintCollection rules c).map .found, cancellable }

/-- Goes through a run up to its next message: the number of objects taken, and the message with
the events behind it. -/
def nextInRun : List Event → Nat × Option (Message × List Event)
  | [] => (0, none)
  | .take :: es => ((nextInRun es).1 + 1, (nextInRun es).2)
  | .found m :: es => (0, some (m, es))

/-- Goes through runs up to the next message. If the reading is cancelled, the message is lost and
its run ends. -/
def nextInRuns (cancelled : Bool) (taken : Nat) :
    List (List Event) → Option Message × Nat × List (List Event)
  | [] => (none, taken, [])
  | run :: runs =>
    match nextInRun run with
    | (n, none) => nextInRuns cancelled (taken + n) runs
    | (n, some (m, es)) =>
      if cancelled then nextInRuns cancelled (taken + n) runs
      else (some m, taken + n, es :: runs)

/-- The next message, none at the end, and what is ahead then. -/
def next (cancelled : Bool) (c : Cursor) : Option Message × Cursor :=
  let (m, taken, runs) := nextInRuns (cancelled && c.cancellable) c.taken c.runs
  (m, { c with runs, taken })

/-- An upper bound for the number of messages ahead. -/
def eventCount (c : Cursor) : Nat :=
  c.runs.flatten.length

/-- At most `limit` messages, one after the other. -/
def takeMessages (cancelled : Bool) : Nat → Cursor → List Message × Cursor
  | 0, c => ([], c)
  | limit + 1, c =>
    match c.next cancelled with
    | (none, c) => ([], c)
    | (some m, c) =>
      let (ms, c) := takeMessages cancelled limit c
      (m :: ms, c)

/-- All messages ahead. -/
def drain (cancelled : Bool) (c : Cursor) : List Message × Cursor :=
  takeMessages cancelled (c.eventCount + 1) c

end Cursor

end SchemaAudit
