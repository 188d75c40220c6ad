import FleetControl.Program.Run
import Std.Time.DateTime.Timestamp

/-!
The program as a process: it reads its arguments, its environment and the files that they name, and
writes what the run leaves to be written. It opens no network connections, so every database is out
of reach.
-/

namespace FleetControl.Program

def readIfThere (path : String) : IO (Option String) := do
  try return some (← IO.FS.readFile path)
  catch _ => return none

def entry? (entry : List Char) : Option (String × String) :=
  (Text.splitOnce '=' entry).map fun (name, value) => (String.ofList name, String.ofList value)

def readEnvironment : IO Environment := do
  let text := (← readIfThere "/proc/self/environ").getD ""
  return (Text.splitOn '\x00' text.toList).filterMap entry?

def surroundings (args : List String) : IO Surroundings := do
  let now := (← Std.Time.Timestamp.now).toMillisecondsSinceUnixEpoch.toInt
  let configFile := match Invocation.ofArgs args with | .ok i => i.configFile | .error _ => none
  let content ← match configFile with
    | some path => readIfThere path
    | none => pure none
  return ⟨fun path => if some path = configFile then content else none, ← readEnvironment,
    fun _ => true, fun _ => .closed, .ofMillis now⟩

def write (e : Ending) : IO Ending := do
  match e.toWrite with
  | none => return e
  | some (path, text) =>
    try
      IO.FS.writeFile path text
      return e
    catch _ => return e.unwritten path

def finish (e : Ending) : IO UInt32 := do
  e.complaints.forM fun line => IO.eprintln line
  e.printed.forM fun line => IO.println line
  return e.exitCode.toUInt32

end FleetControl.Program

open FleetControl Program in
def main (args : List String) : IO UInt32 := do
  let around ← surroundings args
  let dotEnv ← readIfThere ".env"
  finish (← write (run around dotEnv args))
