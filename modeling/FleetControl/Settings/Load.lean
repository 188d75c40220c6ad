import FleetControl.Environment.Basic
import FleetControl.Json.Reader
import FleetControl.Settings.Basic
import FleetControl.Settings.Loose
import FleetControl.Settings.Tree
import FleetControl.Toml.Reader

/-!
Loading the settings. The defaults come first, a file is laid over them, and variables of the
environment over both: `SWITCHYARD__SECTION__KEY` sets the key of a section.
-/

namespace FleetControl.Settings

open Loose

def valueOf (text : String) : Json :=
  match Text.lower text with
  | "true" => .bool true
  | "false" => .bool false
  | _ =>
    match Text.signed64? text.toList with
    | some n => .int n
    | none =>
      match Double.ofText? text.toList with
      | some x => .real x
      | none => .str text

def withDots : List Char → List Char
  | '_' :: '_' :: cs => '.' :: withDots cs
  | [] => []
  | c :: cs => c :: withDots cs

def stripFront? : List Char → List Char → Option (List Char)
  | [], cs => some cs
  | p :: ps, c :: cs => if p = c then stripFront? ps cs else none
  | _ :: _, [] => none

def pathOf? (name : String) : Option String :=
  (stripFront? "switchyard__".toList (Text.lower name).toList).map fun cs => String.ofList (withDots cs)

def fromEnvironment (environment : Environment) : List (String × Json) :=
  environment.filterMap fun (name, text) => (pathOf? name).map (·, valueOf text)

def extension? (path : String) : Option String :=
  match (Text.splitOn '/' path.toList).getLast? with
  | some name =>
    match Text.splitLast '.' name with
    | some (_ :: _, ext) => some (String.ofList ext)
    | _ => none
  | none => none

def withoutMark (text : String) : String :=
  match text.toList with
  | '\ufeff' :: cs => String.ofList cs
  | _ => text

def fromFile? (path text : String) : Option (List (String × Json)) := do
  let j ←
    match extension? path with
    | some "toml" => Toml.ofText? (withoutMark text)
    | some "json" => (Json.ofText? (withoutMark text)).map Json.canonical
    | _ => none
  match j with
  | .obj members => some members
  | _ => none

def databaseSection : Json.RecordReader DatabaseSettings := do
  return ⟨← setting text? "url" "memory://", ← setting smallCount? "max_connections" 10,
    ← setting smallCount? "min_connections" 0, ← setting count? "connect_timeout_seconds" 10,
    ← setting count? "idle_timeout_seconds" 600, ← setting truth? "auto_migrate" true⟩

def observabilitySection : Json.RecordReader ObservabilitySettings := do
  return ⟨← setting text? "service_name" "switchyard", ← setting text? "log_level" "info",
    ← setting truth? "json_logging" false⟩

def controlSection : Json.RecordReader ControlSettings := do
  return ⟨← setting truth? "ignore_readiness_check" false,
    ← setting optionalText? "default_product" none⟩

def ofTree? : Json → Option Settings :=
  readSection? do
    return ⟨← setting (readSection? databaseSection) "database" {},
      ← setting (readSection? observabilitySection) "observability" {},
      ← setting (readSection? controlSection) "control" {}⟩

def read? (file? : String → Option String) (path : Option String) (environment : Environment) :
    Option Settings := do
  let fromFile ←
    match path with
    | none => some []
    | some p => (file? p).bind (fromFile? p)
  ofTree? (SettingsTree.apply (fromEnvironment environment)
    (SettingsTree.apply fromFile (encode ({} : Settings))))

def load (file? : String → Option String) (path : Option String) (environment : Environment) :
    Except Fault Settings :=
  match read? file? path environment with
  | some s => s.validate
  | none => .error (.config "Configuration loading failed")

end FleetControl.Settings
