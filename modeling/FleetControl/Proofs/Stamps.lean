import FleetControl.Proofs.Json.Reading
import FleetControl.Proofs.Version

/-!
New versions and what they are greater than. A version that is taken from the clock is the Gregorian
date and time of the moment in digits, so a later millisecond gives a greater version; and a version
that is minted after another is greater than that one. After the greatest word of 64 bits none is.
-/

namespace FleetControl.Version

open Gregorian

theorem stampNumber_lt {c c' : CivilTime} {t t' : Instant} (h : c.IsAt t) (h' : c'.IsAt t')
    (hyear : 0 ≤ c.year) (hlt : t.micros / 1000 < t'.micros / 1000) :
    stampNumber c < stampNumber c' := by
  obtain ⟨hdate, hhour, hminute, hsecond, hmicro, ht⟩ := h
  obtain ⟨hdate', hhour', hminute', hsecond', hmicro', ht'⟩ := h'
  have hmonth := hdate.month_le
  have hday := Nat.le_trans hdate.day_le (monthLength_le _ _)
  have hmonth' := hdate'.month_le
  have hday' := Nat.le_trans hdate'.day_le (monthLength_le _ _)
  unfold stampNumber
  -- The dates decide, or else the times of one day; the later moment has no earlier date.
  rcases before_or_eq_or_before c.year c'.year c.month c'.month c.day c'.day with
    hbefore | ⟨hyears, hmonths, hdays⟩ | hafter
  · unfold Before at hbefore
    omega
  · rw [← hyears, ← hmonths, ← hdays] at ht' ⊢
    omega
  · have hnumber := dayNumber_lt hdate' hdate hafter
    omega

/-- The version of a topic that had none is the number in which the date and time are written. -/
def StartsAt (now : Instant) (n : Nat) : Prop :=
  ∃ c : CivilTime, c.IsAt now ∧ n = stampNumber c ∧
    ∃ version, mint now none = .ok version ∧ number? version = some n

theorem startsAt_civil {now : Instant} (h : InYears now) :
    StartsAt now (stampNumber now.civil) := by
  have hle := stampNumber_le h
  rw [lastStamp] at hle
  exact ⟨now.civil, now.civil_isAt, rfl, _, mint_none h, number?_ofNumber (by omega)⟩

/-- Later milliseconds start with greater versions. -/
theorem startsAt_increasing {ms ms' : Int} (hlt : ms < ms') (h : InYears (.ofMillis ms))
    (h' : InYears (.ofMillis ms')) :
    ∃ n n', StartsAt (.ofMillis ms) n ∧ StartsAt (.ofMillis ms') n' ∧ n < n' := by
  refine ⟨_, _, startsAt_civil h, startsAt_civil h', ?_⟩
  refine stampNumber_lt (Instant.civil_isAt _) (Instant.civil_isAt _) h.1 ?_
  simp only [Instant.ofMillis]
  omega

theorem startsAt_millennium :
    InYears (.ofMillis 253402300799999) ∧ InYears (.ofMillis 253402300800000) ∧
      ∃ n n', StartsAt (.ofMillis 253402300799999) n ∧ StartsAt (.ofMillis 253402300800000) n' ∧
        n < n' :=
  ⟨by decide +kernel, by decide +kernel,
    startsAt_increasing (by decide) (by decide +kernel) (by decide +kernel)⟩

/-! Versions after versions. -/

def IsPlain (version : String) : Prop :=
  version ≠ "" ∧ (∀ c ∈ version.toList, c.isDigit = true) ∧
    ∀ c cs, version.toList ≠ '0' :: c :: cs

theorem isPlain_ofNumber (n : Nat) : IsPlain (ofNumber n) := by
  refine ⟨fun hempty => ?_, ?_, ?_⟩
  · have hnil : Text.ofNat n = [] := String.ofList_eq_empty_iff.1 hempty
    exact Nat.toDigits_ne_nil hnil
  · rw [ofNumber, String.toList_ofList]
    exact fun c hc => Text.isDigit_of_mem_ofNat hc
  · rw [ofNumber, String.toList_ofList]
    exact Json.ofNat_ne_zero_cons n

theorem number?_lt {version : String} {n : Nat} (h : number? version = some n) : n < 2 ^ 64 := by
  unfold number? Text.unsigned64? at h
  exact of_decide_eq_true (Option.filter_eq_some_iff.1 h).2

/-- After a version there is a greater one, in plain digits, unless it is the greatest word. Then the
program stops. -/
theorem mint_greater_iff {now : Instant} (h : InYears now) {last : String} {n : Nat}
    (hlast : number? last = some n) :
    ((∃ version m, mint now (some last) = .ok version ∧ IsPlain version ∧
        number? version = some m ∧ m = max (stampNumber now.civil) (n + 1) ∧ n < m) ↔
      n < 2 ^ 64 - 1) ∧
    (mint now (some last) = .error .exhausted ↔ n = 2 ^ 64 - 1) := by
  have hword := number?_lt hlast
  have hstamp := stampNumber_le h
  rw [lastStamp] at hstamp
  by_cases hroom : n + 1 < 2 ^ 64
  · have hmint := mint_some h hlast hroom
    have hnumber : number? (ofNumber (max (stampNumber now.civil) (n + 1))) =
        some (max (stampNumber now.civil) (n + 1)) := number?_ofNumber (by omega)
    have hgreater : n < max (stampNumber now.civil) (n + 1) := by omega
    constructor
    · exact ⟨fun _ => by omega, fun _ => ⟨_, _, hmint, isPlain_ofNumber _, hnumber, rfl, hgreater⟩⟩
    · rw [hmint]
      constructor
      · intro hexhausted
        cases hexhausted
      · intro hgreatest
        omega
  · obtain rfl : n = 2 ^ 64 - 1 := by omega
    have hmint := mint_greatest h hlast
    constructor
    · constructor
      · rintro ⟨version, m, hversion, -⟩
        rw [hmint] at hversion
        cases hversion
      · intro hless
        exact absurd hless (Nat.lt_irrefl _)
    · exact ⟨fun _ => rfl, fun _ => hmint⟩

theorem mint_greater_padded :
    InYears ⟨1709622489042000⟩ ∧ number? "+0020240305070809042" = some 20240305070809042 ∧
      ∃ version m, mint ⟨1709622489042000⟩ (some "+0020240305070809042") = .ok version ∧
        IsPlain version ∧ number? version = some m ∧ 20240305070809042 < m := by
  have hyears : InYears ⟨1709622489042000⟩ := by decide +kernel
  have hlast : number? "+0020240305070809042" = some 20240305070809042 := by decide +kernel
  obtain ⟨version, m, hmint, hplain, hnumber, -, hgreater⟩ :=
    (mint_greater_iff hyears hlast).1.2 (by decide)
  exact ⟨hyears, hlast, version, m, hmint, hplain, hnumber, hgreater⟩

theorem mint_greatestWord :
    InYears ⟨1709622489042000⟩ ∧ number? "18446744073709551615" = some (2 ^ 64 - 1) ∧
      (mint ⟨1709622489042000⟩ (some "18446744073709551615")).mapError (·.fault) =
        .error (.halt "attempt to add with overflow") ∧
      ¬ ∃ version m, mint ⟨1709622489042000⟩ (some "18446744073709551615") = .ok version ∧
        IsPlain version ∧ number? version = some m ∧ 2 ^ 64 - 1 < m := by
  have hyears : InYears ⟨1709622489042000⟩ := by decide +kernel
  have hlast : number? "18446744073709551615" = some (2 ^ 64 - 1) := by decide +kernel
  have hmint := mint_greatest hyears hlast
  refine ⟨hyears, hlast, ?_, ?_⟩
  · rw [hmint]
    rfl
  · rintro ⟨version, m, hversion, -⟩
    rw [hmint] at hversion
    cases hversion

end FleetControl.Version
