import SchemaAudit.Text.Blank

/-!
# Qualified names

An object of a database has a local name and can be qualified by a schema, the schema by a
database, and the database by a server. `Identifier.ofFields` and `Identifier.ofParts` refuse all
other combinations; `NameFault` says which rule a refused name breaks.
-/

namespace SchemaAudit

/-- Why some texts do not make a qualified name. -/
inductive NameFault where
  /-- The local name is absent or blank. -/
  | noLocalName
  /-- A server without a database or without a schema. -/
  | serverAlone
  /-- A database without a schema. -/
  | databaseAlone
  /-- A number of parts that no name has. -/
  | partCount (n : Nat)
  deriving DecidableEq, Repr

/-- The rule that a refused name breaks. -/
def NameFault.message : NameFault → String
  | noLocalName => "An identifier requires a local name"
  | serverAlone => "A server name was provided, but other components are missing"
  | databaseAlone => "A database name was provided, but other components are missing"
  | partCount n => "Expected between 1 and 4 name parts, got " ++ toString n

/-- What stands in front of a local name, each part requiring the less specific ones. -/
inductive Qualifier where
  | bare
  | schema (schema : String)
  | database (database schema : String)
  | server (server database schema : String)
  deriving DecidableEq, Repr

namespace Qualifier

/-- The schema, if the name has one. -/
def schema? : Qualifier → Option String
  | bare => none
  | schema s => some s
  | database _ s => some s
  | server _ _ s => some s

/-- The database, if the name has one. -/
def database? : Qualifier → Option String
  | database d _ => some d
  | server _ d _ => some d
  | _ => none

/-- The server, if the name has one. -/
def server? : Qualifier → Option String
  | server v _ _ => some v
  | _ => none

/-- The parts of the qualifier, the widest first. -/
def parts : Qualifier → List String
  | bare => []
  | schema s => [s]
  | database d s => [d, s]
  | server v d s => [v, d, s]

end Qualifier

/-- A qualified name. -/
structure Identifier where
  localName : String
  qualifier : Qualifier
  deriving DecidableEq, Repr

namespace Identifier

/-- A name without a qualifier. -/
def bare (localName : String) : Identifier :=
  ⟨localName, .bare⟩

/-- The present parts of the name, the widest first. -/
def parts (i : Identifier) : List String :=
  i.qualifier.parts ++ [i.localName]

/-- The parts joined with points. -/
def text (i : Identifier) : String :=
  String.intercalate "." i.parts

/-- The name with the given parts. A part that is present requires the less specific ones; only the
local name must not be blank. -/
def ofFields (localName schema database server : Option String) : Except NameFault Identifier :=
  match localName with
  | none => .error .noLocalName
  | some n =>
    if Text.isBlankString n then .error .noLocalName
    else
      match server, database, schema with
      | some v, some d, some s => .ok ⟨n, .server v d s⟩
      | some _, _, _ => .error .serverAlone
      | none, some d, some s => .ok ⟨n, .database d s⟩
      | none, some _, none => .error .databaseAlone
      | none, none, some s => .ok ⟨n, .schema s⟩
      | none, none, none => .ok ⟨n, .bare⟩

/-- A part of a name, absent when it is blank. -/
def nonBlank (part : Option String) : Option String :=
  part.filter (!Text.isBlankString ·)

/-- The name with one to four parts, the widest first. Blank parts count as absent. -/
def ofParts (parts : List (Option String)) : Except NameFault Identifier :=
  match parts.map nonBlank with
  | [n] => ofFields n none none none
  | [s, n] => ofFields n s none none
  | [d, s, n] => ofFields n s d none
  | [v, d, s, n] => ofFields n s d v
  | ps => .error (.partCount ps.length)

end Identifier

end SchemaAudit
