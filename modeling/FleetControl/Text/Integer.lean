/-!
Decimal integers in text: digits of ASCII only, an optional sign, and the range of a machine word.
-/

namespace FleetControl.Text

def digit? (c : Char) : Option Nat :=
  if '0' ≤ c ∧ c ≤ '9' then some (c.toNat - '0'.toNat) else none

def readDigits (base : Nat) (digit : Char → Option Nat) : (n : Nat) → List Char → Option Nat
  | n, [] => some n
  | n, c :: cs =>
    match digit c with
    | some d => readDigits base digit (n * base + d) cs
    | none => none

def natural? : List Char → Option Nat
  | [] => none
  | c :: cs => readDigits 10 digit? 0 (c :: cs)

def integer? : List Char → Option Int
  | '+' :: cs => (natural? cs).map Int.ofNat
  | '-' :: cs => (natural? cs).map fun n => -Int.ofNat n
  | cs => (natural? cs).map Int.ofNat

def inSigned64 (n : Int) : Bool := -0x8000000000000000 ≤ n && n ≤ 0x7FFFFFFFFFFFFFFF

def signed64? (cs : List Char) : Option Int :=
  (integer? cs).filter inSigned64

def unsigned64? (cs : List Char) : Option Nat :=
  (match cs with
    | '+' :: ds => natural? ds
    | ds => natural? ds).filter (· < 0x10000000000000000)

def ofNat (n : Nat) : List Char := Nat.toDigits 10 n

def ofInt : Int → List Char
  | .ofNat n => ofNat n
  | .negSucc n => '-' :: ofNat (n + 1)

def zeroPadded (width n : Nat) : List Char :=
  let ds := ofNat n
  List.replicate (width - ds.length) '0' ++ ds

end FleetControl.Text
