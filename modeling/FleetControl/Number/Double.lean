/-!
Binary floating point numbers of 53 bits, in exact integer arithmetic: rounding a decimal to the
nearest one, and the fewest decimal digits that round back to it.
-/

namespace FleetControl

/-- A finite number is `±mantissa · 2 ^ exponent`. -/
inductive Double where
  | finite (negative : Bool) (mantissa : Nat) (exponent : Int)
  | infinite (negative : Bool)
  | nan
  deriving DecidableEq, Repr

namespace Double

def twoTo (n : Nat) : Nat := Nat.pow 2 n

def tenTo (n : Nat) : Nat := Nat.pow 10 n

def precision : Nat := 53
def leastExponent : Int := -1074
def greatestExponent : Int := 971

def roundHalfEven (num den : Nat) : Nat :=
  let q := num / den
  let r := num % den
  if 2 * r < den then q
  else if den < 2 * r then q + 1
  else if q % 2 = 0 then q else q + 1

def ofRatio (negative : Bool) (num den : Nat) : Double :=
  if num = 0 then .finite negative 0 leastExponent
  else
    let scale : Int := (num.log2 : Int) - (den.log2 : Int)
    -- the value lies in `(2 ^ (scale - 1), 2 ^ (scale + 1))`
    let below := if 0 ≤ scale then num < den * twoTo scale.toNat else num * twoTo (-scale).toNat < den
    let top := if below then scale - 1 else scale
    let e := max (top - (precision - 1 : Nat)) leastExponent
    let m := if 0 ≤ e then roundHalfEven num (den * twoTo e.toNat)
      else roundHalfEven (num * twoTo (-e).toNat) den
    let (m, e) := if m = twoTo precision then (m / 2, e + 1) else (m, e)
    if greatestExponent < e then .infinite negative else .finite negative m e

def ofDecimal (negative : Bool) (digits : Nat) (exponent : Int) : Double :=
  if digits = 0 then .finite negative 0 leastExponent
  else
    let magnitude : Int := exponent + (Nat.toDigits 10 digits).length
    if 400 < magnitude then .infinite negative
    else if magnitude < -400 then .finite negative 0 leastExponent
    else if 0 ≤ exponent then ofRatio negative (digits * tenTo exponent.toNat) 1
    else ofRatio negative digits (tenTo (-exponent).toNat)

def isFinite : Double → Bool
  | .finite .. => true
  | _ => false

def isZero : Double → Bool
  | .finite _ 0 _ => true
  | _ => false

/-- The value, its half and its neighbours' midpoints over one denominator: `(low, value, high, den)`. -/
def interval (m : Nat) (e : Int) : Nat × Nat × Nat × Nat :=
  let wide := m ≠ twoTo (precision - 1) || e ≤ leastExponent
  -- in units of `2 ^ (e - 2)`
  let value := 4 * m
  let low := if wide then value - 2 else value - 1
  let high := value + 2
  if 2 ≤ e then
    let f := twoTo (e - 2).toNat
    (low * f, value * f, high * f, 1)
  else (low, value, high, twoTo (2 - e).toNat)

/-- The nearest point of the grid `d · 10 ^ k` that still rounds to the value, if there is one. -/
def gridPoint (closed : Bool) (low value high den : Nat) (k : Int) : Option Nat :=
  -- everything is compared over the denominator `den`
  let unit := if 0 ≤ k then den * tenTo k.toNat else den
  let scale := if 0 ≤ k then 1 else tenTo (-k).toNat
  let inside (d : Nat) : Bool :=
    let x := d * unit
    if closed then low * scale ≤ x && x ≤ high * scale else low * scale < x && x < high * scale
  let floor := value * scale / unit
  let below := floor
  let above := floor + 1
  let distBelow := value * scale - below * unit
  let distAbove := above * unit - value * scale
  match inside below && 0 < below, inside above with
  | true, true =>
    if distBelow < distAbove then some below
    else if distAbove < distBelow then some above
    else if below % 2 = 0 then some below else some above
  | true, false => some below
  | false, true => some above
  | false, false => none

def searchGrid (closed : Bool) (low value high den : Nat) : (fuel : Nat) → (k : Int) → Nat × Int
  | 0, k => (value / den, k)
  | fuel + 1, k =>
    match gridPoint closed low value high den k with
    | some d => (d, k)
    | none => searchGrid closed low value high den fuel (k - 1)

def shortest (m : Nat) (e : Int) : Nat × Int :=
  let (low, value, high, den) := interval m e
  let whole := (Nat.toDigits 10 (value / den)).length
  searchGrid (m % 2 = 0) low value high den 420 whole

def signText (negative : Bool) : List Char := if negative then ['-'] else []

def positional (d : Nat) (k : Int) : List Char :=
  let ds := Nat.toDigits 10 d
  if 0 ≤ k then ds ++ List.replicate k.toNat '0'
  else
    let places := (-k).toNat
    if places < ds.length then ds.take (ds.length - places) ++ '.' :: ds.drop (ds.length - places)
    else '0' :: '.' :: (List.replicate (places - ds.length) '0' ++ ds)

def plain : Double → List Char
  | .nan => "NaN".toList
  | .infinite negative => signText negative ++ "inf".toList
  | .finite negative 0 _ => signText negative ++ ['0']
  | .finite negative m e =>
    let (d, k) := shortest m e
    signText negative ++ positional d k

def round : Double → Option Int
  | .finite negative m e =>
    let n := if 0 ≤ e then m * twoTo e.toNat else (2 * m + twoTo (-e).toNat) / (2 * twoTo (-e).toNat)
    some (if negative then -(n : Int) else n)
  | _ => none

end Double
end FleetControl
