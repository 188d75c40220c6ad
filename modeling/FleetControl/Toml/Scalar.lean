import FleetControl.Json.Basic
import FleetControl.Text.Hex
import FleetControl.Text.Integer
import FleetControl.Text.Split

/-!
The values that TOML writes as bare words: booleans, numbers, and dates and times. The last are kept
as text, in one normal form.
-/

namespace FleetControl.Toml

def digits? (base : Nat) (digit : Char → Option Nat) (cs : List Char) : Option Nat :=
  let groups := Text.splitOn '_' cs
  if groups.any (·.isEmpty) then none else Text.readDigits base digit 0 groups.flatten

def decimal? : List Char → Option Nat := digits? 10 Text.digit?

def digitBelow (base : Nat) (c : Char) : Option Nat := (Text.digit? c).filter (· < base)

def whole? (cs : List Char) : Option Nat :=
  match cs with
  | '0' :: _ :: _ => none
  | _ => decimal? cs

def unsigned : List Char → Bool × List Char
  | '-' :: cs => (true, cs)
  | '+' :: cs => (false, cs)
  | cs => (false, cs)

def integer? (cs : List Char) : Option Int :=
  let n? : Option Int :=
    match cs with
    | '0' :: 'x' :: ds => (digits? 16 Text.hexDigit? ds).map Int.ofNat
    | '0' :: 'o' :: ds => (digits? 8 (digitBelow 8) ds).map Int.ofNat
    | '0' :: 'b' :: ds => (digits? 2 (digitBelow 2) ds).map Int.ofNat
    | _ =>
      let (negative, ds) := unsigned cs
      (whole? ds).map fun n => if negative then -(n : Int) else n
  n?.filter Text.inSigned64

def exponent? (cs : List Char) : Option Int :=
  let (negative, ds) := unsigned cs
  (decimal? ds).map fun n => if negative then -(n : Int) else n

def decimalReal? (negative : Bool) (cs : List Char) : Option Double := do
  let isMark (c : Char) : Bool := c = 'e' || c = 'E'
  let mantissa := cs.takeWhile (!isMark ·)
  let exponent ←
    match cs.dropWhile (!isMark ·) with
    | [] => if mantissa.contains '.' then some 0 else none
    | _ :: e => exponent? e
  let (whole, places) := (Text.splitOnce '.' mantissa).getD (mantissa, ['0'])
  let n ← whole? whole
  let fraction ← decimal? places
  let count := (places.filter (· != '_')).length
  let x := Double.ofDecimal negative (n * Double.tenTo count + fraction) (exponent - count)
  if x.isFinite then some x else none

def real? (cs : List Char) : Option Double :=
  let (negative, ds) := unsigned cs
  if ds = "inf".toList then some (.infinite negative)
  else if ds = "nan".toList then some .nan
  else decimalReal? negative ds

def field? (width low high : Nat) (cs : List Char) : Option Nat :=
  if cs.length = width then (Text.natural? cs).filter fun n => low ≤ n && n ≤ high else none

def isLeapYear (y : Nat) : Bool := y % 4 = 0 && (y % 100 ≠ 0 || y % 400 = 0)

def daysIn (year month : Nat) : Nat :=
  if month = 2 then (if isLeapYear year then 29 else 28)
  else if [4, 6, 9, 11].contains month then 30 else 31

def isDate (cs : List Char) : Bool :=
  match Text.splitOn '-' cs with
  | [y, m, d] =>
    match field? 4 0 9999 y, field? 2 1 12 m with
    | some year, some month => (field? 2 1 (daysIn year month) d).isSome
    | _, _ => false
  | _ => false

def fraction? (cs : List Char) : Option (List Char) :=
  match cs with
  | [] => some []
  | '.' :: ds =>
    if (Text.natural? ds).isNone then none
    else
      match (((ds.take 9).reverse.dropWhile (· = '0')).reverse : List Char) with
      | [] => some []
      | kept => some ('.' :: kept)
  | _ => none

def time? (cs : List Char) : Option (List Char) :=
  match Text.splitOn ':' (cs.take 8) with
  | [h, m, s] =>
    if (field? 2 0 23 h).isSome && (field? 2 0 59 m).isSome && (field? 2 0 60 s).isSome then
      (fraction? (cs.drop 8)).map (cs.take 8 ++ ·)
    else none
  | _ => none

def isOffset (cs : List Char) : Bool :=
  match Text.splitOn ':' cs with
  | [h, m] => (field? 2 0 23 h).isSome && (field? 2 0 59 m).isSome
  | _ => false

def timeAndOffset? (cs : List Char) : Option (List Char) :=
  let clock := cs.takeWhile fun c => !("Zz+-".toList.contains c)
  match cs.dropWhile fun c => !("Zz+-".toList.contains c) with
  | [] => time? clock
  | ['Z'] | ['z'] => (time? clock).map (· ++ ['Z'])
  | sign :: offset =>
    if (sign = '+' || sign = '-') && isOffset offset then (time? clock).map (· ++ sign :: offset)
    else none

def moment? (cs : List Char) : Option (List Char) :=
  if isDate (cs.take 10) then
    match cs.drop 10 with
    | [] => some cs
    | 'T' :: rest | 't' :: rest => (timeAndOffset? rest).map fun t => cs.take 10 ++ 'T' :: t
    | _ => none
  else time? cs

def scalar? (cs : List Char) : Option Json :=
  if cs = "true".toList then some (.bool true)
  else if cs = "false".toList then some (.bool false)
  else
    match integer? cs with
    | some n => some (.int n)
    | none =>
      match real? cs with
      | some x => some (.real x)
      | none => (moment? cs).map fun t => .str (String.ofList t)

end FleetControl.Toml
