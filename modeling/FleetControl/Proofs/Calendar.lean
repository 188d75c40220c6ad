import FleetControl.Calendar

/-!
Civil times in the Gregorian calendar. Dates are numbered here by the rules of the calendar alone,
by leap years and the lengths of months; the civil date of a day is a real date that has the number of
the day, and later dates have greater numbers.
-/

namespace FleetControl

namespace Gregorian

variable {year year' : Int} {month month' day day' : Nat}

def isLeap (year : Int) : Bool := year % 4 = 0 && (year % 100 ≠ 0 || year % 400 = 0)

def yearLength (leap : Bool) : Nat := if leap then 366 else 365

def monthLength (leap : Bool) : (month : Nat) → Nat
  | 2 => if leap then 29 else 28
  | 4 | 6 | 9 | 11 => 30
  | _ => 31

def daysBeforeMonth (leap : Bool) : (month : Nat) → Nat
  | 0 | 1 => 0
  | month + 2 => daysBeforeMonth leap (month + 1) + monthLength leap (month + 1)

def daysBeforeYear (year : Int) : Int :=
  365 * year + (year + 3) / 4 - (year + 99) / 100 + (year + 399) / 400

def dayNumber (year : Int) (month day : Nat) : Int :=
  daysBeforeYear year - daysBeforeYear 1970 + daysBeforeMonth (isLeap year) month + day - 1

structure IsDate (year : Int) (month day : Nat) : Prop where
  month_pos : 1 ≤ month
  month_le : month ≤ 12
  day_pos : 1 ≤ day
  day_le : day ≤ monthLength (isLeap year) month

def Before (year : Int) (month day : Nat) (year' : Int) (month' day' : Nat) : Prop :=
  year < year' ∨ year = year' ∧ (month < month' ∨ month = month' ∧ day < day')

theorem before_or_eq_or_before (year year' : Int) (month month' day day' : Nat) :
    Before year month day year' month' day' ∨ (year = year' ∧ month = month' ∧ day = day') ∨
      Before year' month' day' year month day := by
  unfold Before
  omega

theorem daysBeforeYear_succ (year : Int) :
    daysBeforeYear (year + 1) = daysBeforeYear year + yearLength (isLeap year) := by
  simp only [daysBeforeYear, yearLength, isLeap, Bool.and_eq_true, Bool.or_eq_true,
    decide_eq_true_eq]
  split <;> omega

theorem daysBeforeMonth_succ (leap : Bool) (h : 1 ≤ month) :
    daysBeforeMonth leap (month + 1) = daysBeforeMonth leap month + monthLength leap month := by
  obtain ⟨m, rfl⟩ := Nat.exists_eq_add_of_le' h
  rfl

theorem daysBeforeMonth_yearEnd (leap : Bool) : daysBeforeMonth leap 13 = yearLength leap := by
  cases leap <;> rfl

theorem monthLength_le (leap : Bool) (month : Nat) : monthLength leap month ≤ 31 := by
  unfold monthLength
  split
  · cases leap <;> decide
  all_goals decide

/-! Later dates have greater numbers. -/

theorem daysBeforeYear_mono (h : year ≤ year') : daysBeforeYear year ≤ daysBeforeYear year' := by
  unfold daysBeforeYear
  omega

theorem daysBeforeMonth_mono (leap : Bool) (h : month ≤ month') :
    daysBeforeMonth leap month ≤ daysBeforeMonth leap month' := by
  induction h with
  | refl => exact Nat.le_refl _
  | @step m h ih =>
    refine Nat.le_trans ih ?_
    cases m with
    | zero => exact Nat.le_refl 0
    | succ m => exact Nat.le_add_right _ _

theorem IsDate.dayOfYear_le (h : IsDate year month day) :
    daysBeforeMonth (isLeap year) month + day ≤ daysBeforeMonth (isLeap year) (month + 1) := by
  rw [daysBeforeMonth_succ _ h.month_pos]
  exact Nat.add_le_add_left h.day_le _

theorem dayNumber_lt (h : IsDate year month day) (h' : IsDate year' month' day')
    (hbefore : Before year month day year' month' day') :
    dayNumber year month day < dayNumber year' month' day' := by
  have hday := h.dayOfYear_le
  have hpos := h'.day_pos
  unfold dayNumber
  rcases hbefore with hyear | ⟨rfl, hmonth | ⟨rfl, hlt⟩⟩
  · have hmonths : daysBeforeMonth (isLeap year) (month + 1) ≤ yearLength (isLeap year) := by
      rw [← daysBeforeMonth_yearEnd]
      exact daysBeforeMonth_mono _ (Nat.succ_le_succ h.month_le)
    have hyears := daysBeforeYear_mono (Int.add_one_le_of_lt hyear)
    rw [daysBeforeYear_succ] at hyears
    omega
  · have hmonths : daysBeforeMonth (isLeap year) (month + 1) ≤
        daysBeforeMonth (isLeap year) month' := daysBeforeMonth_mono _ hmonth
    omega
  · omega

/-! The date of a day. Years are counted from 1 March here, so that leap days end them. -/

/-- The days of an era of 400 years before a year of it. -/
def marchStart (year : Nat) : Nat := 365 * year + year / 4 - year / 100 + year / 400

/-- The days of an era before a day of it, leap days left out. -/
def evenDays (day : Nat) : Nat := day - day / 1460 + day / 36524 - day / 146096

theorem evenDays_mono {d d' : Nat} (h : d ≤ d') (hera : d' < 146097) : evenDays d ≤ evenDays d' := by
  unfold evenDays
  omega

theorem le_evenDays_marchStart : ∀ y < 400, 365 * y ≤ evenDays (marchStart y) := by
  decide +kernel

theorem evenDays_before_marchStart :
    ∀ y < 400, evenDays (marchStart (y + 1) - 1) < 365 * (y + 1) := by
  decide +kernel

theorem yearOfEra_lt {d : Nat} (h : d < 146097) : evenDays d / 365 < 400 := by
  have hlast : evenDays 146096 = 145999 := by decide
  have hmono : evenDays d ≤ evenDays 146096 := evenDays_mono (Nat.le_of_lt_succ h) (by decide)
  omega

theorem yearOfEra_bounds {d y : Nat} (h : d < 146097) (hy : evenDays d / 365 = y) :
    marchStart y ≤ d ∧ d < marchStart (y + 1) := by
  have hyear := yearOfEra_lt h
  rw [hy] at hyear
  -- A day outside the year would be counted to another year.
  refine ⟨Nat.le_of_not_lt fun hlt => ?_, Nat.lt_of_not_le fun hge => ?_⟩
  · cases y with
    | zero => exact Nat.not_lt_zero d hlt
    | succ y =>
      have hbefore := evenDays_before_marchStart y (by omega)
      have hmono := evenDays_mono (Nat.le_sub_one_of_lt hlt) (by unfold marchStart; omega)
      omega
  · have hlast : y ≠ 399 := by
      rintro rfl
      exact Nat.not_le_of_lt h hge
    have hnext := le_evenDays_marchStart (y + 1) (by omega)
    have hmono := evenDays_mono hge h
    omega

def dateFromMarch (year : Int) (dayOfYear : Nat) : Int × Nat × Nat :=
  let shifted := (5 * dayOfYear + 2) / 153
  let month := if shifted < 10 then shifted + 3 else shifted - 9
  (if month ≤ 2 then year + 1 else year, month, dayOfYear - (153 * shifted + 2) / 5 + 1)

theorem civilDate_eq (n : Int) :
    Instant.civilDate n =
      let era := (n + 719468) / 146097
      let dayOfEra := ((n + 719468) % 146097).toNat
      dateFromMarch ((evenDays dayOfEra / 365 : Nat) + era * 400)
        (dayOfEra - marchStart (evenDays dayOfEra / 365)) := by
  have hyear : evenDays ((n + 719468) % 146097).toNat / 365 < 400 := yearOfEra_lt (by omega)
  unfold Instant.civilDate
  dsimp only
  rw [← evenDays]
  generalize evenDays ((n + 719468) % 146097).toNat / 365 = y at hyear ⊢
  have hstart : 365 * y + y / 4 - y / 100 = marchStart y := by
    unfold marchStart
    omega
  rw [hstart]
  rfl

theorem dateFromMarch_bounds : ∀ n < 366, ∀ leap : Bool,
    let month := (dateFromMarch 0 n).2.1
    let day := (dateFromMarch 0 n).2.2
    1 ≤ month ∧ month ≤ 12 ∧ 1 ≤ day ∧
      (month ≤ 2 → daysBeforeMonth leap month + day + 305 = n ∧
        (n < 365 + leap.toNat → day ≤ monthLength leap month)) ∧
      (2 < month → daysBeforeMonth leap month + day = n + 60 + leap.toNat ∧
        day ≤ monthLength leap month) := by
  decide +kernel

theorem yearLength_eq (leap : Bool) : yearLength leap = 365 + leap.toNat := by
  cases leap <;> rfl

theorem dateFromMarch_isDate (year : Int) (n : Nat) (h : n < 365 + (isLeap (year + 1)).toNat) :
    IsDate (dateFromMarch year n).1 (dateFromMarch year n).2.1 (dateFromMarch year n).2.2 ∧
      dayNumber (dateFromMarch year n).1 (dateFromMarch year n).2.1 (dateFromMarch year n).2.2 =
        daysBeforeYear year + (isLeap year).toNat + n - 719469 := by
  have hleap := Bool.toNat_le (isLeap (year + 1))
  have hbounds := dateFromMarch_bounds n (by omega)
  have horigin : daysBeforeYear 1970 = 719528 := by decide
  have hnext := daysBeforeYear_succ year
  rw [yearLength_eq] at hnext
  have hyear : (dateFromMarch year n).1 =
      if (dateFromMarch 0 n).2.1 ≤ 2 then year + 1 else year := rfl
  have hrest : (dateFromMarch year n).2 = (dateFromMarch 0 n).2 := rfl
  rw [hyear, hrest]
  generalize (dateFromMarch 0 n).2 = date at hbounds
  obtain ⟨month, day⟩ := date
  unfold dayNumber
  by_cases hearly : month ≤ 2
  · obtain ⟨hpos, hle, hday, hcase, -⟩ := hbounds (isLeap (year + 1))
    rw [if_pos hearly]
    exact ⟨⟨hpos, hle, hday, (hcase hearly).2 h⟩, by have := (hcase hearly).1; omega⟩
  · obtain ⟨hpos, hle, hday, -, hcase⟩ := hbounds (isLeap year)
    have hlate : 2 < month := Nat.lt_of_not_le hearly
    rw [if_neg hearly]
    exact ⟨⟨hpos, hle, hday, (hcase hlate).2⟩, by have := (hcase hlate).1; omega⟩

theorem daysBeforeYear_add_leap (y : Nat) (era : Int) :
    daysBeforeYear (y + era * 400) + (isLeap (y + era * 400)).toNat =
      146097 * era + marchStart y + 1 := by
  cases hleap : isLeap (y + era * 400)
  all_goals
    simp only [isLeap, Bool.and_eq_true, Bool.or_eq_true, decide_eq_true_eq,
      Bool.and_eq_false_iff, Bool.or_eq_false_iff, decide_eq_false_iff_not] at hleap
    simp only [daysBeforeYear, marchStart, Bool.toNat_true, Bool.toNat_false]
    omega

theorem marchStart_succ (y : Nat) (era : Int) :
    marchStart (y + 1) = marchStart y + 365 + (isLeap (y + era * 400 + 1)).toNat := by
  have hyear := daysBeforeYear_add_leap y era
  have hnext := daysBeforeYear_add_leap (y + 1) era
  have hsucc := daysBeforeYear_succ (y + era * 400)
  have hshift : ((y + 1 : Nat) : Int) + era * 400 = y + era * 400 + 1 := by omega
  rw [hshift] at hnext
  rw [yearLength_eq] at hsucc
  omega

theorem civilDate_isDate (n : Int) :
    IsDate (Instant.civilDate n).1 (Instant.civilDate n).2.1 (Instant.civilDate n).2.2 ∧
      dayNumber (Instant.civilDate n).1 (Instant.civilDate n).2.1 (Instant.civilDate n).2.2 =
        n := by
  have hera : ((n + 719468) % 146097).toNat < 146097 := by omega
  have hday : n + 719468 = 146097 * ((n + 719468) / 146097) + ((n + 719468) % 146097).toNat := by
    omega
  rw [civilDate_eq]
  dsimp only
  generalize ((n + 719468) % 146097).toNat = d at hera hday ⊢
  generalize (n + 719468) / 146097 = era at hday ⊢
  obtain ⟨hstart, hend⟩ := yearOfEra_bounds hera rfl
  generalize evenDays d / 365 = y at hstart hend ⊢
  rw [marchStart_succ y era] at hend
  have hbefore := daysBeforeYear_add_leap y era
  obtain ⟨hdate, hnumber⟩ :=
    dateFromMarch_isDate (y + era * 400) (d - marchStart y) (by omega)
  refine ⟨hdate, hnumber.trans ?_⟩
  omega

end Gregorian

open Gregorian

/-- A real date and time of day, as far from the first moment of 1970 as the instant. -/
structure CivilTime.IsAt (c : CivilTime) (t : Instant) : Prop where
  date : IsDate c.year c.month c.day
  hour_lt : c.hour < 24
  minute_lt : c.minute < 60
  second_lt : c.second < 60
  micro_lt : c.micro < 1000000
  micros_eq : t.micros = (((dayNumber c.year c.month c.day * 24 + c.hour) * 60 + c.minute) * 60 +
    c.second) * 1000000 + c.micro

theorem Instant.civil_isAt (t : Instant) : t.civil.IsAt t := by
  obtain ⟨hdate, hnumber⟩ := civilDate_isDate (t.micros / 86400000000)
  have hclock : (t.micros % 86400000000).toNat < 86400000000 := by omega
  have hmicros : t.micros = t.micros / 86400000000 * 86400000000 +
      (t.micros % 86400000000).toNat := by omega
  refine ⟨hdate, ?_, ?_, ?_, ?_, ?_⟩
  · simp only [civil]
    omega
  · simp only [civil]
    omega
  · simp only [civil]
    omega
  · simp only [civil]
    omega
  · simp only [civil, hnumber]
    omega

end FleetControl
