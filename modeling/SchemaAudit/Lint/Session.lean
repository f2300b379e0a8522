import SchemaAudit.Lint.Cursor
import SchemaAudit.Lint.Selection

/-!
# Sessions

A session keeps several cursors over one database under names, and a mark that cancels the reading
of those that heed it. Its log holds all messages that were read, in order.
-/

namespace SchemaAudit

/-- Whose messages are asked for. -/
inductive Reader where
  /-- All rules of the session. -/
  | linter
  /-- One of them by itself. -/
  | single (rule : Rule)
  deriving DecidableEq, Repr

/-- Which objects of the database are looked at. -/
inductive Choice where
  | everything
  | positions (ns : List Nat)
  | absent
  deriving DecidableEq, Repr

/-- What is asked. -/
inductive Query where
  /-- All kinds of objects of the database. -/
  | database
  /-- The objects of a kind. -/
  | kind (k : ObjectKind)
  /-- The objects of the kind that a value names. -/
  | named (kind : Doc)
  /-- The first of the objects of a kind by itself. -/
  | object (k : ObjectKind)
  deriving DecidableEq, Repr

/-- A session with its database, rules, cursors and log. -/
structure Session where
  database : Database
  rules : List Rule
  cancellable : Bool := false
  cancelled : Bool := false
  cursors : List (String × Cursor) := []
  log : List Message := []
  deriving Repr

namespace Session

/-- The chosen objects of a kind, if any objects are given. -/
def choose (s : Session) (k : ObjectKind) : Choice → Option Collection
  | .everything => some (s.database.collection k)
  | .positions ns => some ((s.database.collection k).pick ns)
  | .absent => none

/-- A value that must be present. -/
def given {α : Type} (argument : String) : Option α → Except Failure α
  | some a => .ok a
  | none => .error (.input (.missing argument))

/-- The cursor of the whole linter. -/
def openLinter (s : Session) (q : Query) (objects : Choice) : Except Failure Cursor :=
  match q with
  | .database =>
    if objects = .everything then .ok (.overDatabase s.rules s.database s.cancellable)
    else .error (.input (.missing "database"))
  | .kind k => do
    let c ← given k.plural (s.choose k objects)
    .ok (.overCollection s.rules c s.cancellable)
  | _ => .error .wrongKind

/-- The cursor of a single rule. A rule asked for the objects of a kind that it does not look at has
no answer, unless the kind is only named. -/
def openRule (s : Session) (r : Rule) (q : Query) (objects : Choice) : Except Failure Cursor :=
  match q with
  | .database => .error .wrongKind
  | .kind k =>
    if r.inspection.supports k then do
      let c ← given k.plural (s.choose k objects)
      .ok (.overRule r c)
    else .error .wrongKind
  | .named name => do
    let kind? := ObjectKind.ofDoc? name
    let c ← given "objects" (s.choose (kind?.getD .table) objects)
    if kind?.isSome then .ok (.overRule r c) else .error (.input (.unknownKind name))
  | .object k =>
    match s.choose k objects with
    | some c =>
      if r.inspection.supports k then .ok (.overObjects r (c.pick [0])) else .error .wrongKind
    | none => .error .wrongKind

/-- Opens a cursor under a name, in place of an earlier one of that name. -/
def open? (s : Session) (name : String) (reader : Reader) (q : Query) (objects : Choice) :
    Except Failure Session := do
  let cursor ←
    match reader with
    | .linter => s.openLinter q objects
    | .single r => s.openRule r q objects
  .ok { s with cursors := (name, cursor) :: s.cursors.filter (·.1 != name) }

/-- The session after a cursor was moved and has given messages. -/
def advance (s : Session) (name : String) (cursor : Cursor) (read : List Message) : Session :=
  { s with
    cursors := s.cursors.map fun e => if e.1 == name then (name, cursor) else e
    log := s.log ++ read }

/-- The next message of a cursor, and the number of objects it has taken. -/
def next (s : Session) (name : String) : Option (Option Message × Nat × Session) :=
  (s.cursors.lookup name).map fun cursor =>
    let (m, cursor) := cursor.next s.cancelled
    (m, cursor.taken, s.advance name cursor m.toList)

/-- All messages that are ahead of a cursor, and the number of objects it has taken. -/
def drain (s : Session) (name : String) : Option (List Message × Nat × Session) :=
  (s.cursors.lookup name).map fun cursor =>
    let (ms, cursor) := cursor.drain s.cancelled
    (ms, cursor.taken, s.advance name cursor ms)

end Session

end SchemaAudit
