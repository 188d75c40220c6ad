import FleetControl.Text.Integer

/-!
Instants on the UTC time line and their civil date and time, in the calendar that extends the
Gregorian rules to all years.
-/

namespace FleetControl

/-- Microseconds since the first moment of 1970. -/
structure Instant where
  micros : Int
  deriving DecidableEq, Repr, Inhabited

structure CivilTime where
  year : Int
  month : Nat
  day : Nat
  hour : Nat
  minute : Nat
  second : Nat
  micro : Nat
  deriving DecidableEq, Repr

namespace Instant

def ofMillis (ms : Int) : Instant := ⟨ms * 1000⟩

def representableMillis (ms : Int) : Bool := -8334601228800000 ≤ ms && ms ≤ 8210266876799999

/-- Years start on 1 March here, so that a leap day is the last day of its year. -/
def civilDate (day : Int) : Int × Nat × Nat :=
  let z := day + 719468
  let era := z / 146097
  let dayOfEra := (z % 146097).toNat
  let yearOfEra := (dayOfEra - dayOfEra / 1460 + dayOfEra / 36524 - dayOfEra / 146096) / 365
  let dayOfYear := dayOfEra - (365 * yearOfEra + yearOfEra / 4 - yearOfEra / 100)
  let shifted := (5 * dayOfYear + 2) / 153
  let dayOfMonth := dayOfYear - (153 * shifted + 2) / 5 + 1
  let month := if shifted < 10 then shifted + 3 else shifted - 9
  let year := (yearOfEra : Int) + era * 400
  (if month ≤ 2 then year + 1 else year, month, dayOfMonth)

def civil (t : Instant) : CivilTime :=
  let (year, month, day) := civilDate (t.micros / 86400000000)
  let rest := (t.micros % 86400000000).toNat
  let seconds := rest / 1000000
  ⟨year, month, day, seconds / 3600, seconds / 60 % 60, seconds % 60, rest % 1000000⟩

end Instant

namespace CivilTime

/-- Four digits for the years 0 to 9999, a sign and at least four digits for the others. -/
def yearText (year : Int) : List Char :=
  if year < 0 then '-' :: Text.zeroPadded 4 year.natAbs
  else if year ≤ 9999 then Text.zeroPadded 4 year.toNat
  else '+' :: Text.zeroPadded 4 year.toNat

def two (n : Nat) : List Char := Text.zeroPadded 2 n

def date (t : CivilTime) : List Char := yearText t.year ++ '-' :: (two t.month ++ '-' :: two t.day)

def clock (t : CivilTime) : List Char :=
  two t.hour ++ ':' :: (two t.minute ++ ':' :: two t.second)

/-- No fraction, milliseconds or microseconds, whichever is exact. -/
def fraction (t : CivilTime) : List Char :=
  if t.micro = 0 then []
  else if t.micro % 1000 = 0 then '.' :: Text.zeroPadded 3 (t.micro / 1000)
  else '.' :: Text.zeroPadded 6 t.micro

end CivilTime

namespace Instant

def rfc3339 (t : Instant) : String :=
  let c := t.civil
  String.ofList (c.date ++ 'T' :: (c.clock ++ c.fraction ++ ['Z']))

def plainText (t : Instant) : String :=
  let c := t.civil
  String.ofList (c.date ++ ' ' :: c.clock)

end Instant
end FleetControl
