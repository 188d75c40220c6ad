import FleetControl.Text.Hex
import FleetControl.Text.Integer
import FleetControl.Text.Split

/-!
The text of IPv6 addresses: eight groups of up to four hexadecimal digits, of which one run of zeros
may be left out, and the last two of which may be given as four decimal bytes.
-/

namespace FleetControl.Ipv6

def group? (cs : List Char) : Option Nat :=
  if cs.isEmpty || 4 < cs.length then none else Text.readDigits 16 Text.hexDigit? 0 cs

def byte? (cs : List Char) : Option Nat :=
  match cs with
  | '0' :: _ :: _ => none
  | _ => (Text.natural? cs).filter (· < 256)

def dotted? (cs : List Char) : Option (List Nat) := do
  match ← (Text.splitOn '.' cs).mapM byte? with
  | [a, b, c, d] => some [256 * a + b, 256 * c + d]
  | _ => none

def groupsOf? : List (List Char) → Option (List Nat)
  | [] => some []
  | [g] => if g.contains '.' then dotted? g else (group? g).map ([·])
  | g :: gs =>
    match group? g, groupsOf? gs with
    | some n, some ns => some (n :: ns)
    | _, _ => none

def groups? (cs : List Char) : Option (List Nat) :=
  if cs.isEmpty then some [] else groupsOf? (Text.splitOn ':' cs)

def splitGap : List Char → Option (List Char × List Char)
  | ':' :: ':' :: rest => some ([], rest)
  | [] => none
  | c :: cs => (splitGap cs).map fun (a, b) => (c :: a, b)

def ofText? (cs : List Char) : Option (List Nat) :=
  match splitGap cs with
  | none => (groups? cs).filter (·.length = 8)
  | some (before, after) => do
    if before.contains '.' then none
    let ns ← groups? before
    let ms ← groups? after
    if ns.length + ms.length ≤ 7 then
      some (ns ++ List.replicate (8 - ns.length - ms.length) 0 ++ ms)
    else none

def leadingZeros (ns : List Nat) : Nat := (ns.takeWhile (· = 0)).length

def longestRun : (place : Nat) → List Nat → Nat × Nat
  | i, [] => (i, 0)
  | i, n :: ns =>
    let rest := longestRun (i + 1) ns
    let here := leadingZeros (n :: ns)
    if rest.2 ≤ here then (i, here) else rest

def groupText (n : Nat) : List Char := Nat.toDigits 16 n

def joined (ns : List Nat) : List Char := [':'].intercalate (ns.map groupText)

/-- The longest run of zeros is left out if there are at least two of them. -/
def text (ns : List Nat) : List Char :=
  let (start, length) := longestRun 0 ns
  if length < 2 then joined ns
  else joined (ns.take start) ++ ':' :: ':' :: joined (ns.drop (start + length))

end FleetControl.Ipv6
