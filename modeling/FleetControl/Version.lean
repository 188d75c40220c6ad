import FleetControl.Calendar
import FleetControl.Digest.Sha256
import FleetControl.Fault
import FleetControl.Json.Codec
import FleetControl.Json.Printer

/-!
Versions of exported files. Every topic has a ledger of signatures and versions; a version stays as
long as the content it was given to, and new content gets a number greater than the last.
-/

namespace FleetControl

structure ConfigVersion where
  topic : String
  signature : String
  version : String
  createdAt : Instant
  deriving DecidableEq, Repr

namespace Version

/-- What a file carries as its version while it is signed. -/
def zero : String := "0"

def sign (payload : Json) : String := Sha256.ofText payload.canonical.text

/-- The text a map's key is signed under: texts as they are, integers and names in their JSON form. -/
def keyText? : Json → Option String
  | .str s => some s
  | .int n => some (String.ofList (Text.ofInt n))
  | .bool true => some "true"
  | .bool false => some "false"
  | _ => none

inductive SignFailure where
  | badKey
  deriving DecidableEq, Repr

def SignFailure.fault : SignFailure → Fault
  | badKey => .serialization "Failed to canonicalize payload"

/-- Sign a map given as pairs of any keys and values; of keys with one text the last counts. -/
def signPairs (pairs : List (Json × Json)) : Except SignFailure String :=
  match pairs.mapM fun p => (keyText? p.1).map fun k => (k, p.2) with
  | some members => .ok (sign (.obj members))
  | none => .error .badKey

def stamp (now : Instant) : List Char :=
  let c := now.civil
  CivilTime.yearText c.year ++ CivilTime.two c.month ++ CivilTime.two c.day ++
  CivilTime.two c.hour ++ CivilTime.two c.minute ++ CivilTime.two c.second ++
  Text.zeroPadded 3 (c.micro / 1000)

inductive MintFailure where
  /-- The years before 0 have no numeric stamp. -/
  | badStamp
  | notNumeric (last : String)
  /-- The last version is the greatest word of 64 bits, and none comes after it. -/
  | exhausted
  deriving DecidableEq, Repr

def MintFailure.fault : MintFailure → Fault
  | badStamp => .internal "Failed to format version timestamp: invalid digit found in string"
  | notNumeric last => .dirtyData ("Stored config version '" ++ last ++ "' is not numeric")
  | exhausted => .halt "attempt to add with overflow"

def number? (version : String) : Option Nat := Text.unsigned64? version.toList

def ofNumber (n : Nat) : String := String.ofList (Text.ofNat n)

/-- The stamp of the moment, or the number after the last version if that is greater. -/
def mint (now : Instant) (last : Option String) : Except MintFailure String :=
  match Text.unsigned64? (stamp now) with
  | none => .error .badStamp
  | some candidate =>
    match last with
    | none => .ok (ofNumber candidate)
    | some text =>
      match number? text with
      | none => .error (.notNumeric text)
      | some n =>
        if n < candidate then .ok (ofNumber candidate)
        else if n + 1 < 0x10000000000000000 then .ok (ofNumber (n + 1))
        else .error .exhausted

end Version

namespace ConfigVersion

instance : Json.Encode ConfigVersion where
  encode v := .obj [("topic", encode v.topic), ("signature", encode v.signature),
    ("version", encode v.version), ("created_at", .str v.createdAt.rfc3339)]

end ConfigVersion
end FleetControl
