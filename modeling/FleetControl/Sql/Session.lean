import FleetControl.Fault
import FleetControl.Sql.Value

/-!
A session with a database, from this side of the wire: the statements that were sent, and the replies
still to come. Nothing is known of a reply but that the peer gives one for each statement.
-/

namespace FleetControl.Sql

inductive Reply where
  | rows (rows : List Row)
  | affected (count : Nat)
  | error (message : String)

def Reply.count : Reply → Nat
  | rows rs => rs.length
  | affected n => n
  | error _ => 0

def Reply.toRows : Reply → List Row
  | rows rs => rs
  | _ => []

structure Session where
  /-- A session that is closed sends nothing, and whatever is asked of it fails. -/
  alive : Bool
  replies : List Reply
  /-- Which of `BEGIN` and `COMMIT` the peer refuses; these use up no reply. -/
  refused : List String
  /-- Oldest first. -/
  sent : List Statement

namespace Session

def start (replies : List Reply) (refused : List String) : Session := ⟨true, replies, refused, []⟩

def closed : Session := ⟨false, [], [], []⟩

end Session

inductive Failure where
  | server (message : String)
  | unusable
  deriving DecidableEq, Repr

/-- A conversation with the database; statements sent before a failure stay sent. -/
abbrev Exchange (ε α : Type) := ExceptT ε (StateM Session) α

def send (st : Statement) : Exchange Failure Reply := fun s =>
  if !s.alive then (.error .unusable, s)
  else
    let s' := { s with sent := s.sent ++ [st] }
    match s.replies with
    | [] => (.error .unusable, s')
    | .error m :: rest => (.error (.server m), { s' with replies := rest })
    | r :: rest => (.ok r, { s' with replies := rest })

def control (name : String) : Exchange Failure Unit := fun s =>
  if !s.alive then (.error .unusable, s)
  else
    (if s.refused.contains name then .error .unusable else .ok (),
      { s with sent := s.sent ++ [⟨name, []⟩] })

def inContext {α : Type} (context : String) (x : Exchange Failure α) : Exchange Fault α :=
  ExceptT.adapt (fun _ => Fault.storage context) x

def execute (context : String) (st : Statement) : Exchange Fault Nat :=
  inContext context do return (← send st).count

def readRow {α : Type} (read : Row → Option α) (r : Row) : Exchange Failure α :=
  match read r with
  | some a => pure a
  | none => throw .unusable

def fetchAll {α : Type} (context : String) (st : Statement) (read : Row → Option α) :
    Exchange Fault (List α) :=
  inContext context do (← send st).toRows.mapM (readRow read)

def fetchOptional {α : Type} (context : String) (st : Statement) (read : Row → Option α) :
    Exchange Fault (Option α) :=
  inContext context do
    match (← send st).toRows with
    | [] => return none
    | r :: _ => some <$> readRow read r

def fetchOne {α : Type} (context : String) (st : Statement) (read : Row → Option α) :
    Exchange Fault α :=
  inContext context do
    match (← send st).toRows with
    | [] => throw .unusable
    | r :: _ => readRow read r

end FleetControl.Sql
