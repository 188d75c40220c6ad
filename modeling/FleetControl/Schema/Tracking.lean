import FleetControl.Schema.Migration
import FleetControl.Store.Database

/-!
Which migrations a database has been through. They are recorded in a table of their own, and a
migration runs in one transaction with its record, so that it is there exactly if it is recorded. A
database without that table has been through none.
-/

namespace FleetControl.Schema

open Sql

structure Applied where
  version : Int
  description : String
  installedOn : Instant
  /-- In milliseconds. -/
  executionTime : Int
  checksum : List UInt8

instance : Json.Encode Applied where
  encode a := .obj [("version", encode a.version), ("description", encode a.description),
    ("installed_on", encode a.installedOn.rfc3339), ("execution_time", encode a.executionTime),
    ("checksum", .arr (a.checksum.map fun b => .int b.toNat))]

def version? (r : Row) : Option Int := r.column? "version"

def applied? (r : Row) : Option Applied := do
  return ⟨← r.column? "version", ← r.column? "description", ← r.column? "installed_on",
    ← r.column? "execution_time", ← r.column? "checksum"⟩

def isMissingTable (message : String) : Bool :=
  Text.occursIn "relation \"_switchyard_migrations\" does not exist".toList message.toList

/-- The records, of which there are none if there is no table. The program cannot go on with a
record that it cannot read. -/
def fetchRecords {α : Type} (context : String) (st : Statement) (read : Row → Option α) :
    Exchange Fault (List α) := do
  let rows ← inContext context (tryCatch (Reply.toRows <$> send st) fun
    | .server message => if isMissingTable message then pure [] else throw (.server message)
    | e => throw e)
  rows.mapM fun r =>
    match read r with
    | some a => pure a
    | none => throw (.halt "unreadable record of a migration")

def checkConnection : Exchange Fault Unit :=
  fetchOne "Database connectivity check failed" ⟨"SELECT 1", []⟩ fun _ => some ()

def createTable : Exchange Fault Unit :=
  Store.Database.run "Failed to create migration tracking table"
    ⟨"CREATE TABLE IF NOT EXISTS _switchyard_migrations ( version BIGINT PRIMARY KEY, " ++
      "description TEXT NOT NULL, checksum BYTEA NOT NULL, execution_time BIGINT NOT NULL, " ++
      "installed_on TIMESTAMPTZ NOT NULL DEFAULT CURRENT_TIMESTAMP )", []⟩

def appliedVersions : Exchange Fault (List Int) :=
  fetchRecords "Failed to get applied migrations"
    ⟨"SELECT version FROM _switchyard_migrations ORDER BY version", []⟩ version?

def listApplied : Exchange Fault (List Applied) :=
  fetchRecords "Failed to list applied migrations"
    ⟨"SELECT version, description, checksum, execution_time, installed_on " ++
      "FROM _switchyard_migrations ORDER BY version", []⟩ applied?

structure Timing where
  now : Instant
  elapsed : Int := 0

def record (timing : Timing) (m : Migration) : Exchange Fault Unit :=
  Store.Database.run ("Failed to record migration: " ++ m.name)
    ⟨"INSERT INTO _switchyard_migrations (version, description, checksum, execution_time, " ++
      "installed_on) VALUES ($1, $2, $3, $4, $5)",
      [arg m.version, arg m.name, .bytes m.checksum, arg timing.elapsed, arg timing.now]⟩

def apply (timing : Timing) (m : Migration) : Exchange Fault Unit := do
  inContext "Failed to start migration transaction" (control "BEGIN")
  Store.Database.run ("Migration failed: " ++ m.name) ⟨m.script, []⟩
  record timing m
  inContext "Failed to commit migration transaction" (control "COMMIT")

def pendingOf (applied : List Int) : List Migration :=
  Migration.all.filter fun m => !applied.contains m.version

def applyAll (timing : Timing) : List Migration → Exchange Fault Unit
  | [] => pure ()
  | m :: ms => do
    apply timing m
    applyAll timing ms

def migrate (timing : Timing) : Exchange Fault Unit := do
  createTable
  applyAll timing (pendingOf (← appliedVersions))

def pending : Exchange Fault (List Migration) := pendingOf <$> appliedVersions

def isCurrentFor (applied : List Int) : Bool :=
  (pendingOf applied).isEmpty && applied.all ((Migration.all.map (·.version)).contains ·)

def isCurrent : Exchange Fault Bool := isCurrentFor <$> appliedVersions

def newest : List Int → Int
  | [] => 0
  | v :: vs => vs.foldl max v

def version : Exchange Fault Int := newest <$> appliedVersions

end FleetControl.Schema
