import FleetControl.Address.DatabaseUrl
import FleetControl.Schema.Tracking
import FleetControl.Settings.Basic

/-!
Opening a database: the settings are checked, the driver reads the address, the server is reached, and
if the settings ask for it the pending migrations are applied.
-/

namespace FleetControl.Store.Connection

open Sql

def refusal? (d : DatabaseSettings) : Option Fault :=
  if d.maxConnections = 0 then some (.config "max_connections must be greater than 0")
  else if d.maxConnections < d.minConnections then
    some (.config "min_connections cannot be greater than max_connections")
  else if d.url = "" then some (.config "database URL cannot be empty")
  else if !d.isPostgresql then
    some (.config "database URL must start with 'postgresql://' or 'postgres://'")
  else none

def unreachable (url : String) : Fault :=
  .storage ("Failed to connect to database: " ++ DatabaseUrl.shown url)

/-- The driver reads the address first, by rules of its own; one that it does not take fails like a
server that is not there, before any is looked for. -/
def reach (reads : String → Bool) (url : String) : Exchange Fault Unit := do
  if !reads url then throw (unreachable url)
  if !(← get).alive then throw (unreachable url)

def connect (reads : String → Bool) (timing : Schema.Timing) (d : DatabaseSettings) :
    Exchange Fault Unit := do
  match refusal? d with
  | some f => throw f
  | none =>
    reach reads d.url
    if d.autoMigrate then Schema.migrate timing

end FleetControl.Store.Connection
