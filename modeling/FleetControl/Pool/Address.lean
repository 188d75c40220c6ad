import FleetControl.Text.Hex
import FleetControl.Text.Integer
import FleetControl.Text.Split

/-!
The text forms of IP addresses: four decimal octets, or eight hexadecimal groups of which one run of
zeros may be left out and the last two may be written as octets.
-/

namespace FleetControl.Address

def isOctet (cs : List Char) : Bool :=
  cs.length ≤ 3 && !(cs.length > 1 && cs.head? = some '0') && (Text.natural? cs).any (· ≤ 255)

def isV4 (cs : List Char) : Bool :=
  let octets := Text.splitOn '.' cs
  octets.length = 4 && octets.all isOctet

def isGroup (cs : List Char) : Bool :=
  !cs.isEmpty && cs.length ≤ 4 && cs.all fun c => (Text.hexDigit? c).isSome

def groupCount? : List (List Char) → Option Nat
  | [] => some 0
  | [last] => if isGroup last then some 1 else if isV4 last then some 2 else none
  | g :: rest => if isGroup g then (groupCount? rest).map (· + 1) else none

def splitGap : List Char → Option (List Char × List Char)
  | ':' :: ':' :: rest => some ([], rest)
  | c :: cs => (splitGap cs).map fun (a, b) => (c :: a, b)
  | [] => none

def pieces (cs : List Char) : List (List Char) := if cs.isEmpty then [] else Text.splitOn ':' cs

def isV6 (cs : List Char) : Bool :=
  match splitGap cs with
  | none => groupCount? (pieces cs) = some 8
  | some (before, after) =>
    (pieces before).all isGroup &&
    (groupCount? (pieces after)).any fun n => (pieces before).length + n ≤ 7

def isValid (s : String) : Bool := isV4 s.toList || isV6 s.toList

end FleetControl.Address
