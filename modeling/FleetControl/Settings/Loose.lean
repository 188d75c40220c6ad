import FleetControl.Json.Codec
import FleetControl.Number.Reading
import FleetControl.Text.Split

/-!
Reading settings loosely: texts, numbers and booleans stand for each other where that makes sense. A
section is read member by member, or item by item if it is a list.
-/

namespace FleetControl.Loose

open Json Json.RecordReader

/-- Whole numbers beyond a signed word of 64 bits are rounded. -/
def number (n : Int) : Json :=
  if Text.inSigned64 n then .int n else .real (Double.ofDecimal (n < 0) n.natAbs 0)

def settled : Json → Json
  | .int n => number n
  | j => j

def truthWords : List String := ["1", "true", "on", "yes"]

def falsehoodWords : List String := ["0", "false", "off", "no"]

def truth? (j : Json) : Option Bool :=
  match settled j with
  | .bool b => some b
  | .int n => some (n != 0)
  | .real x => some (!x.isZero)
  | .str s =>
    if truthWords.contains (Text.lower s) then some true
    else if falsehoodWords.contains (Text.lower s) then some false
    else none
  | _ => none

def largestCount : Nat := 0xFFFFFFFFFFFFFFFF

def nearestCount : Double → Nat
  | .infinite false => largestCount
  | x => min largestCount ((x.round.getD 0).toNat)

def count? (j : Json) : Option UInt64 :=
  UInt64.ofNat <$>
    match settled j with
    | .bool b => some b.toNat
    | .int n => if n < 0 then none else some n.toNat
    | .real x => some (nearestCount x)
    | .str s =>
      if truthWords.tail.contains (Text.lower s) then some 1
      else if falsehoodWords.tail.contains (Text.lower s) then some 0
      else Text.unsigned64? (Text.lower s).toList
    | _ => none

/-- A count of 32 bits; higher bits are lost. -/
def smallCount? (j : Json) : Option UInt32 := (count? j).map UInt64.toUInt32

def text? (j : Json) : Option String :=
  match settled j with
  | .str s => some s
  | .bool b => some (if b then "true" else "false")
  | .int n => some (String.ofList (Text.ofInt n))
  | .real x => some (String.ofList x.plain)
  | _ => none

def optionalText? : Json → Option (Option String)
  | .null => some none
  | j => (text? j).map some

def setting {α : Type} (read : Json → Option α) (name : String) (fallback : α) : RecordReader α := do
  match ← next? name with
  | some j => liftM (read j)
  | none => return fallback

def readSection? {α : Type} (r : RecordReader α) : Json → Option α
  | .obj members => (r.run (.named members)).map Prod.fst
  | .arr items => (r.run (.positional items)).map Prod.fst
  | _ => none

end FleetControl.Loose
