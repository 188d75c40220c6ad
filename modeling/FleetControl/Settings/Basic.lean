import FleetControl.Json.Codec
import FleetControl.Validation

/-!
The settings of the program: where the store is, how to log, and how the managers behave.
-/

namespace FleetControl

open Json.RecordReader Validation

structure DatabaseSettings where
  url : String := "memory://"
  maxConnections : UInt32 := 10
  minConnections : UInt32 := 0
  connectTimeoutSeconds : UInt64 := 10
  /-- Zero for connections that may stay idle for ever. -/
  idleTimeoutSeconds : UInt64 := 600
  autoMigrate : Bool := true
  deriving DecidableEq, Repr

namespace DatabaseSettings

instance : Json.Encode DatabaseSettings where
  encode d := .obj [("url", encode d.url), ("max_connections", encode d.maxConnections),
    ("min_connections", encode d.minConnections),
    ("connect_timeout_seconds", encode d.connectTimeoutSeconds),
    ("idle_timeout_seconds", encode d.idleTimeoutSeconds), ("auto_migrate", encode d.autoMigrate)]

instance : Json.Decode DatabaseSettings where
  decode? := Json.record? do
    return ⟨← defaulted "url" "memory://", ← defaulted "max_connections" 10,
      ← defaulted "min_connections" 0, ← defaulted "connect_timeout_seconds" 10,
      ← defaulted "idle_timeout_seconds" 600, ← defaulted "auto_migrate" true⟩

def idleTimeout (d : DatabaseSettings) : Option UInt64 :=
  if d.idleTimeoutSeconds = 0 then none else some d.idleTimeoutSeconds

def isMemory (d : DatabaseSettings) : Bool := d.url = "memory://"

def isPostgresql (d : DatabaseSettings) : Bool :=
  "postgresql://".toList.isPrefixOf d.url.toList || "postgres://".toList.isPrefixOf d.url.toList

def findings (d : DatabaseSettings) : Findings :=
  .ofField "url" (length (some 1) none (some "Database URL cannot be empty") d.url) ++
  .ofField "max_connections" (range (some 1) (some 100)
    (some "Max connections must be between 1 and 100") d.maxConnections.toNat) ++
  .ofField "min_connections" (range (some 0) (some 50)
    (some "Min connections must be between 0 and 50") d.minConnections.toNat) ++
  .ofField "connect_timeout_seconds" (range (some 1) (some 60)
    (some "Connect timeout must be between 1 and 60 seconds") d.connectTimeoutSeconds.toNat)

end DatabaseSettings

structure ObservabilitySettings where
  serviceName : String := "switchyard"
  logLevel : String := "info"
  jsonLogging : Bool := false
  deriving DecidableEq, Repr

namespace ObservabilitySettings

instance : Json.Encode ObservabilitySettings where
  encode o := .obj [("service_name", encode o.serviceName), ("log_level", encode o.logLevel),
    ("json_logging", encode o.jsonLogging)]

instance : Json.Decode ObservabilitySettings where
  decode? := Json.record? do
    return ⟨← defaulted "service_name" "switchyard", ← defaulted "log_level" "info",
      ← defaulted "json_logging" false⟩

def findings (o : ObservabilitySettings) : Findings :=
  .ofField "service_name" (length (some 1) none (some "Service name cannot be empty") o.serviceName) ++
  .ofField "log_level" (length (some 1) none (some "Log level cannot be empty") o.logLevel)

end ObservabilitySettings

structure ControlSettings where
  ignoreReadinessCheck : Bool := false
  defaultProduct : Option String := none
  deriving DecidableEq, Repr

namespace ControlSettings

instance : Json.Encode ControlSettings where
  encode c := .obj [("ignore_readiness_check", encode c.ignoreReadinessCheck),
    ("default_product", encode c.defaultProduct)]

instance : Json.Decode ControlSettings where
  decode? := Json.record? do
    return ⟨← defaulted "ignore_readiness_check" false, ← defaultedOptional "default_product"⟩

def findings (c : ControlSettings) : Findings :=
  .ofField "default_product"
    (c.defaultProduct.bind (length (some 1) none (some "Default product cannot be empty")))

end ControlSettings

structure Settings where
  database : DatabaseSettings := {}
  observability : ObservabilitySettings := {}
  control : ControlSettings := {}
  deriving DecidableEq, Repr

namespace Settings

instance : Json.Encode Settings where
  encode s := .obj [("database", encode s.database), ("observability", encode s.observability),
    ("control", encode s.control)]

instance : Json.Decode Settings where
  decode? := Json.record? do
    return ⟨← defaulted "database" {}, ← defaulted "observability" {}, ← defaulted "control" {}⟩

def findings (s : Settings) : Findings :=
  s.database.findings.inside ++ s.observability.findings.inside ++ s.control.findings.inside

def refusal? (s : Settings) : Option Fault :=
  match s.findings.refusal? with
  | some f => some f
  | none =>
    if s.database.maxConnections < s.database.minConnections then
      some (.config "min_connections cannot be greater than max_connections")
    else if !s.database.isMemory && !s.database.isPostgresql then
      some (.config
        "Database URL must start with 'postgresql://', 'postgres://' or be 'memory://'")
    else none

def validate (s : Settings) : Except Fault Settings :=
  match s.refusal? with
  | some f => .error f
  | none => .ok s

end Settings
end FleetControl
