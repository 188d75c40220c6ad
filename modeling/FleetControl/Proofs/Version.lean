import FleetControl.Proofs.Calendar
import FleetControl.Proofs.Decimal
import FleetControl.Version

/-!
Versions are numbers that follow the clock and never repeat. The stamp of a moment has a fixed number
of digits behind the year, so in the years that can be represented it fits a 64-bit word with room
for as many successors as there can be exports.
-/

namespace FleetControl

namespace Instant

theorem civil_bounds (t : Instant) :
    t.civil.month ≤ 12 ∧ t.civil.day ≤ 31 ∧ t.civil.hour < 24 ∧ t.civil.minute < 60 ∧
      t.civil.second < 60 ∧ t.civil.micro < 1000000 := by
  have h := t.civil_isAt
  exact ⟨h.date.month_le, Nat.le_trans h.date.day_le (Gregorian.monthLength_le _ _), h.hour_lt,
    h.minute_lt, h.second_lt, h.micro_lt⟩

end Instant

namespace Version

def stampNumber (c : CivilTime) : Nat :=
  (((((c.year.toNat * 100 + c.month) * 100 + c.day) * 100 + c.hour) * 100 + c.minute) * 100 +
    c.second) * 1000 + c.micro / 1000

def lastStamp : Nat := 2621429999999999999

/-- The moments that have a numeric stamp. -/
def InYears (now : Instant) : Prop := 0 ≤ now.civil.year ∧ now.civil.year ≤ 262142

instance : DecidablePred InYears := fun now =>
  inferInstanceAs (Decidable (0 ≤ now.civil.year ∧ now.civil.year ≤ 262142))

theorem stampNumber_le {now : Instant} (h : InYears now) : stampNumber now.civil ≤ lastStamp := by
  obtain ⟨hlow, hhigh⟩ := h
  obtain ⟨hmonth, hday, hhour, hminute, hsecond, hmicro⟩ := now.civil_bounds
  rw [stampNumber, lastStamp]
  omega

/-- The digits of a stamp, without the sign that years of five digits and more have. -/
def stampDigits (c : CivilTime) : List Char :=
  Text.zeroPadded 4 c.year.toNat ++ CivilTime.two c.month ++ CivilTime.two c.day ++
    CivilTime.two c.hour ++ CivilTime.two c.minute ++ CivilTime.two c.second ++
    Text.zeroPadded 3 (c.micro / 1000)

theorem ofDigitChars_stampDigits (now : Instant) :
    Nat.ofDigitChars 10 (stampDigits now.civil) 0 = stampNumber now.civil := by
  obtain ⟨hmonth, hday, hhour, hminute, hsecond, hmicro⟩ := now.civil_bounds
  have hmilli : now.civil.micro / 1000 < 10 ^ 3 := by omega
  rw [stampDigits, CivilTime.two, CivilTime.two, CivilTime.two, CivilTime.two, CivilTime.two,
    Text.ofDigitChars_append_zeroPadded (by decide) hmilli,
    Text.ofDigitChars_append_zeroPadded (by decide) (by omega),
    Text.ofDigitChars_append_zeroPadded (by decide) (by omega),
    Text.ofDigitChars_append_zeroPadded (by decide) (by omega),
    Text.ofDigitChars_append_zeroPadded (by decide) (by omega),
    Text.ofDigitChars_append_zeroPadded (by decide) (by omega), Text.ofDigitChars_zeroPadded]
  rfl

theorem isDigit_of_mem_stampDigits {c : CivilTime} {d : Char} (h : d ∈ stampDigits c) :
    d.isDigit = true := by
  simp only [stampDigits, CivilTime.two, List.mem_append] at h
  rcases h with (((((h | h) | h) | h) | h) | h) | h <;> exact Text.isDigit_of_mem_zeroPadded h

theorem unsigned64?_stamp {now : Instant} (h : InYears now) :
    Text.unsigned64? (stamp now) = some (stampNumber now.civil) := by
  have hvalue := ofDigitChars_stampDigits now
  have hle := stampNumber_le h
  have hne : stampDigits now.civil ≠ [] :=
    List.append_ne_nil_of_right_ne_nil _ (Text.zeroPadded_ne_nil _ _)
  have hfits : Nat.ofDigitChars 10 (stampDigits now.civil) 0 < 2 ^ 64 := by
    rw [hvalue]
    rw [lastStamp] at hle
    omega
  obtain ⟨hplain, hsigned⟩ :=
    Text.unsigned64?_eq hne (fun _ hd => isDigit_of_mem_stampDigits hd) hfits
  rw [hvalue] at hplain hsigned
  have hyear : ¬ now.civil.year < 0 := Int.not_lt.2 h.1
  rw [stamp, CivilTime.yearText, if_neg hyear]
  split
  · exact hplain
  · exact hsigned

/-! Minting. -/

theorem number?_ofNumber {n : Nat} (h : n < 2 ^ 64) : number? (ofNumber n) = some n := by
  rw [number?, ofNumber, String.toList_ofList, Text.unsigned64?_ofNat h]

theorem mint_none {now : Instant} (h : InYears now) :
    mint now none = .ok (ofNumber (stampNumber now.civil)) := by
  rw [mint, unsigned64?_stamp h]

theorem mint_some {now : Instant} (h : InYears now) {last : String} {n : Nat}
    (hlast : number? last = some n) (hroom : n + 1 < 2 ^ 64) :
    mint now (some last) = .ok (ofNumber (max (stampNumber now.civil) (n + 1))) := by
  rw [mint, unsigned64?_stamp h]
  simp only [hlast]
  by_cases hahead : n < stampNumber now.civil
  · rw [if_pos hahead, Nat.max_eq_left hahead]
  · have hword : n + 1 < 0x10000000000000000 := by omega
    rw [if_neg hahead, if_pos hword, Nat.max_eq_right (by omega)]

theorem mint_greatest {now : Instant} (h : InYears now) {last : String}
    (hlast : number? last = some (2 ^ 64 - 1)) : mint now (some last) = .error .exhausted := by
  have hle := stampNumber_le h
  rw [lastStamp] at hle
  have hahead : ¬ 2 ^ 64 - 1 < stampNumber now.civil := by omega
  rw [mint, unsigned64?_stamp h]
  simp only [hlast, if_neg hahead]
  rfl

end Version
end FleetControl
