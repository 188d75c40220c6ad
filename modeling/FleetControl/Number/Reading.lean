import FleetControl.Number.Double
import FleetControl.Text.Integer
import FleetControl.Text.Split

/-!
Floating point numbers in free-form text: digits on at least one side of a point, an optional
exponent, and the names of infinity and of what is not a number.
-/

namespace FleetControl.Double

def ofName? (negative : Bool) (name : String) : Option Double :=
  if name = "inf" || name = "infinity" then some (.infinite negative)
  else if name = "nan" then some .nan
  else none

def ofDigits? (negative : Bool) (cs : List Char) : Option Double := do
  let isMark (c : Char) : Bool := c = 'e' || c = 'E'
  let mantissa := cs.takeWhile (!isMark ·)
  let exponent ←
    match cs.dropWhile (!isMark ·) with
    | [] => some 0
    | _ :: e => Text.integer? e
  let (whole, places) := (Text.splitOnce '.' mantissa).getD (mantissa, [])
  let n ← Text.natural? (whole ++ places)
  some (ofDecimal negative n (exponent - places.length))

def ofText? (cs : List Char) : Option Double :=
  let (negative, rest) :=
    match cs with
    | '-' :: rest => (true, rest)
    | '+' :: rest => (false, rest)
    | rest => (false, rest)
  match ofName? negative (Text.lower (String.ofList rest)) with
  | some x => some x
  | none => ofDigits? negative rest

end FleetControl.Double
