import FleetControl.Id
import FleetControl.Pool.Address
import FleetControl.Validation

/-!
Backend instances: where a pool's traffic can be sent, with a port for each protocol.
-/

namespace FleetControl

structure Instance where
  hostname : String
  ip : String
  weight : Int32
  ports : SortedMap String UInt16
  tags : SortedMap String String
  deriving DecidableEq

namespace Instance

instance : Json.Encode Instance where
  encode i := .obj [("hostname", encode i.hostname), ("ip", encode i.ip),
    ("weight", encode i.weight), ("ports", encode i.ports), ("tags", encode i.tags)]

open Json.RecordReader in
instance : Json.Decode Instance where
  decode? := Json.record? do
    return ⟨← required "hostname", ← required "ip", ← required "weight", ← required "ports",
      ← defaulted "tags" ∅⟩

def defaultPort (i : Instance) : Option UInt16 :=
  (i.ports.get? "Default").or i.ports.values.head?

inductive Defect where
  | noHostname
  | badAddress (hostname ip : String)
  | negativeWeight (hostname : String)
  | noPorts (hostname : String)
  | portZero (hostname port : String)
  deriving DecidableEq, Repr

namespace Defect

def fault : Defect → Fault
  | noHostname => .onField "Instance hostname cannot be empty" "hostname"
  | badAddress hostname ip =>
    .onField ("Instance '" ++ hostname ++ "' has invalid IP '" ++ ip ++ "'") "ip"
  | negativeWeight hostname =>
    .onField ("Instance '" ++ hostname ++ "' weight must be >= 0") "weight"
  | noPorts hostname =>
    .onField ("Instance '" ++ hostname ++ "' must expose at least one port") "ports"
  | portZero hostname port =>
    .onField ("Instance '" ++ hostname ++ "' port '" ++ port ++ "' must be between 1 and 65535")
      "ports"

end Defect

def defect? (i : Instance) : Option Defect :=
  if Text.allBlank i.hostname then some .noHostname
  else if !Address.isValid i.ip then some (.badAddress i.hostname i.ip)
  else if i.weight < 0 then some (.negativeWeight i.hostname)
  else if i.ports.isEmpty then some (.noPorts i.hostname)
  else
    (i.ports.entries.find? fun p => p.2 == 0).map fun p => .portZero i.hostname p.1

end Instance
end FleetControl
