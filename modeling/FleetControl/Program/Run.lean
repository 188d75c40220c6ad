import FleetControl.ControlPlane
import FleetControl.Environment.DotEnv
import FleetControl.Logging.Filter
import FleetControl.Program.Invocation
import FleetControl.Settings.Load
import FleetControl.Store.Connection
import FleetControl.Store.Tables

/-!
The program: it loads the settings and carries out one task, on a database or on tables in memory
that are empty at its start. What it prints before it fails stays printed.
-/

namespace FleetControl.Program

open Sql CommandLine

structure Surroundings where
  file? : String → Option String
  environment : Environment
  /-- Which addresses of databases the driver takes. -/
  reads : String → Bool
  /-- A session with the database of that address, which may not be reachable. -/
  dial : String → Session
  now : Instant

inductive Stop where
  | fault (f : Fault)
  | complaint (message : String)
  deriving DecidableEq, Repr

def Stop.message : Stop → String
  | fault f => f.message
  | complaint m => m

structure Progress where
  printed : List String
  session : Session
  toWrite : Option (String × String)

abbrev Run := ExceptT Stop (StateM Progress)

def say (line : String) : Run Unit := modify fun p => { p with printed := p.printed ++ [line] }

def complain {α : Type} (message : String) : Run α := throw (.complaint message)

def ofFault {α : Type} : Except Fault α → Run α
  | .ok a => pure a
  | .error f => throw (.fault f)

def talk {α : Type} (x : Exchange Fault α) : Run α := fun p =>
  let (a, s) := x p.session
  (a.mapError .fault, { p with session := s })

def writeFailure (path : String) : Stop := .complaint ("Failed to write " ++ path)

/-! ## Settings -/

/-- The variable for it takes the place of the log level in the settings, if it can be read. -/
def logRefusal? (environment : Environment) (o : ObservabilitySettings) : Option Fault :=
  if (environment.lookup LogFilter.environmentVariable).any LogFilter.isValid then none
  else if LogFilter.isValid o.logLevel then none
  else some (.config "Invalid log level")

def override (i : Invocation) (s : Settings) : Settings :=
  let s := match i.databaseUrl with
    | some url => { s with database := { s.database with url } }
    | none => s
  if i.verbose then { s with observability := { s.observability with logLevel := "debug" } } else s

def settings (around : Surroundings) (i : Invocation) : Except Fault Settings := do
  let loaded ← Settings.load around.file? i.configFile around.environment
  let s ← (override i loaded).validate
  match logRefusal? around.environment s.observability with
  | some f => .error f
  | none => .ok s

/-! ## The schema -/

def migrate (timing : Schema.Timing) (dryRun : Bool) : Run Unit := do
  if dryRun then
    match ← talk Schema.pending with
    | [] => say "No pending migrations"
    | ms =>
      say "Dry run mode - pending migrations:"
      ms.forM fun m => say ("  " ++ m.name)
  else
    say "Running database migrations..."
    talk (Schema.migrate timing)
    say "Migrations completed successfully!"

def status : Run Unit := do
  talk Schema.checkConnection
  let version ← talk Schema.version
  say ("Schema version: " ++ String.ofList (Text.ofInt version))
  if ← talk Schema.isCurrent then say "✅ Database schema is up to date"
  else complain "Database schema has pending migrations"

def shortened (width : Nat) (s : String) : String :=
  if s.length ≤ width then s else String.ofList (s.toList.take (width - 3)) ++ "..."

def tableRow (cells : List (Nat × String)) : String :=
  Text.joinWith " " (cells.map fun (width, s) => Command.padded width s)

def appliedRow (a : Schema.Applied) : String :=
  tableRow [(15, String.ofList (Text.ofInt a.version)), (50, shortened 48 a.description),
    (25, a.installedOn.plainText), (10, String.ofList (Text.ofInt a.executionTime))]

def list : Run Unit := do
  match ← talk Schema.listApplied with
  | [] => say "No migrations have been applied"
  | applied =>
    say "Applied migrations:"
    say ""
    say (tableRow [(15, "Version"), (50, "Description"), (25, "Applied On"), (10, "Time (ms)")])
    say (String.ofList (List.replicate 100 '-'))
    applied.forM fun a => say (appliedRow a)

def validate : Run Unit := do
  say "Validating database schema..."
  if ← talk Schema.isCurrent then say "✅ Database schema validation passed"
  else complain "Database schema validation failed"

def schemaTask (reads : String → Bool) (timing : Schema.Timing) (d : DatabaseSettings)
    (task : SchemaTask) : Run Unit := do
  if d.isMemory then
    complain "Database commands need a PostgreSQL URL; the in-memory store has no schema"
  talk (Store.Connection.connect reads timing d)
  match task with
  | .migrate dryRun => migrate timing dryRun
  | .status => status
  | .list => list
  | .validate => validate

/-! ## Exports -/

def topicOf (task : ExportTask) : Except String String :=
  match task.topic, task.bfeCluster with
  | "gslb", some name => .ok ("gslb." ++ name)
  | "gslb", none => .error "Topic 'gslb' needs --bfe-cluster"
  | topic, none => .ok topic
  | topic, some _ =>
    .error ("--bfe-cluster only applies to the 'gslb' topic, not '" ++ topic ++ "'")

def onStore {α : Type} (reads : String → Bool) (timing : Schema.Timing) (d : DatabaseSettings)
    (op : Store.Operation α) : Run α :=
  if d.isMemory then ofFault (Store.Tables.start.perform op).1
  else talk do
    Store.Connection.connect reads timing d
    Store.Database.perform op

def exportTask (reads : String → Bool) (timing : Schema.Timing) (s : Settings) (task : ExportTask) :
    Run Unit := do
  match topicOf task with
  | .error message => complain message
  | .ok topic =>
    let op := (Call.exportTopic topic task.lastVersion).operation s.control timing.now
    match ← onStore reads timing s.database op with
    | none => say ("Topic '" ++ topic ++ "' unchanged")
    | some file =>
      let text := file.canonical.pretty
      match task.output with
      | some path => modify fun p => { p with toWrite := some (path, text) }
      | none => say text

/-! ## The whole program -/

def perform (around : Surroundings) (s : Settings) : Task → Run Unit
  | .schema task => schemaTask around.reads { now := around.now } s.database task
  | .export task => exportTask around.reads { now := around.now } s task

def carryOut (around : Surroundings) (i : Invocation) : Except Stop Unit × Progress :=
  match settings around i with
  | .error f => (.error (.fault f), ⟨[], around.dial "", none⟩)
  | .ok s => perform around s i.task ⟨[], around.dial s.database.url, none⟩

structure Ending where
  exitCode : Nat
  printed : List String
  complaints : List String
  toWrite : Option (String × String) := none

def Stop.ending (printed : List String) (s : Stop) : Ending :=
  ⟨1, printed, ["Error: " ++ s.message], none⟩

def Ending.unwritten (path : String) (e : Ending) : Ending :=
  let failed := (writeFailure path).ending e.printed
  { failed with complaints := e.complaints ++ failed.complaints }

def refusalEnding : Refusal → Ending
  | .help ls => ⟨0, ls, [], none⟩
  | .version => ⟨0, [versionText], [], none⟩
  | .nothingGiven ls => ⟨2, [], ls, none⟩
  | .missingSubcommand => ⟨2, [], ["error: a subcommand is required but was not given"], none⟩
  | .invalidSubcommand name => ⟨2, [], ["error: unrecognized subcommand '" ++ name ++ "'"], none⟩
  | .unknownArgument arg => ⟨2, [], ["error: unexpected argument '" ++ arg ++ "' found"], none⟩
  | .invalidValue o => ⟨2, [], ["error: a value is required for '" ++ o ++ "'"], none⟩
  | .conflict o => ⟨2, [], ["error: the argument '" ++ o ++ "' cannot be used multiple times"], none⟩
  | .unneededValue o => ⟨2, [], ["error: unexpected value for '" ++ o ++ "'"], none⟩
  | .missingArgument p => ⟨2, [], ["error: required argument was not provided: " ++ p], none⟩

def warning : String := "Warning: Error loading .env file"

def run (around : Surroundings) (dotEnv : Option String) (args : List String) : Ending :=
  let (environment, readable) := (dotEnv.map (DotEnv.load around.environment)).getD (around.environment, true)
  let ending :=
    match Invocation.ofArgs args with
    | .error r => refusalEnding r
    | .ok i =>
      match carryOut { around with environment } i with
      | (.ok _, p) => ⟨0, p.printed, [], p.toWrite⟩
      | (.error s, p) => s.ending p.printed
  if readable then ending else { ending with complaints := warning :: ending.complaints }

end FleetControl.Program
