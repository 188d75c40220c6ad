import FleetControl.CommandLine.Parse

/-!
What the program can be asked to do, and the command line that asks for it.
-/

namespace FleetControl.Program

open CommandLine

inductive SchemaTask where
  | migrate (dryRun : Bool)
  | status
  | list
  | validate
  deriving DecidableEq, Repr

structure ExportTask where
  topic : String
  bfeCluster : Option String
  lastVersion : Option String
  output : Option String
  deriving DecidableEq, Repr

inductive Task where
  | schema (task : SchemaTask)
  | export (task : ExportTask)
  deriving DecidableEq, Repr

structure Invocation where
  configFile : Option String
  databaseUrl : Option String
  verbose : Bool
  task : Task
  deriving DecidableEq, Repr

def shared : List OptionSpec :=
  [⟨"config", some 'c', .path, true, 0, "Configuration file (TOML, YAML or JSON)"⟩,
    ⟨"database-url", none, .text, true, 1, "Database URL override"⟩,
    ⟨"verbose", some 'v', .flag, true, 2, "Enable verbose logging"⟩]

def databaseCommand : Command :=
  .mk "database" "Database management commands" [Command.helpOption] []
    [.mk "migrate" "Run pending migrations"
        [⟨"dry-run", none, .flag, false, 0, "Dry run - show what would be migrated"⟩,
          Command.helpOption] [] [],
      .mk "status" "Show migration status" [Command.helpOption] [] [],
      .mk "list" "List all applied migrations" [Command.helpOption] [] [],
      .mk "validate" "Validate database schema" [Command.helpOption] [] []]

def exportCommand : Command :=
  .mk "export" "Export one configuration topic"
    [⟨"bfe-cluster", none, .text, false, 0, "BFE cluster whose GSLB row to export"⟩,
      ⟨"last-version", none, .text, false, 1,
        "Version the caller already holds; an unchanged topic prints nothing"⟩,
      ⟨"output", some 'o', .path, false, 2, "Write the payload to this file instead of stdout"⟩,
      Command.helpOption]
    [⟨"<TOPIC>", "Topic: route_rule, host_table, cluster_table, instance_table, certificate, " ++
      "gslb (with --bfe-cluster) or gslb.<bfe cluster>"⟩] []

def grammar : Command :=
  .mk "switchyard" "Switchyard BFE load-balancer control plane tooling"
    (shared ++ [Command.helpOption, Command.versionOption]) [] [databaseCommand, exportCommand]

def versionText : String := "switchyard 0.1.0"

def taskOf? (p : Parsed) : Option Task :=
  match p.path.tail, p.positionals with
  | ["database", "migrate"], _ => some (.schema (.migrate (p.given.lookup "dry-run").isSome))
  | ["database", "status"], _ => some (.schema .status)
  | ["database", "list"], _ => some (.schema .list)
  | ["database", "validate"], _ => some (.schema .validate)
  | ["export"], topic :: _ =>
    some (.export ⟨topic, p.given.lookup "bfe-cluster", p.given.lookup "last-version",
      p.given.lookup "output"⟩)
  | _, _ => none

def Invocation.ofArgs (args : List String) : Except Refusal Invocation := do
  let p ← parse grammar args
  match taskOf? p with
  | some task =>
    .ok ⟨p.given.lookup "config", p.given.lookup "database-url", (p.given.lookup "verbose").isSome, task⟩
  | none => .error .missingSubcommand

end FleetControl.Program
