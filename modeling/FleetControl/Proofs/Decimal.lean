import FleetControl.Text.Integer
import Mathlib.Algebra.Group.Nat.Defs

/-!
Decimal digits read back. A run of digits is read as the number it writes, so numbers survive being
written with or without leading zeros.
-/

namespace FleetControl.Text

variable {c : Char} {cs ds : List Char} {n width : Nat}

theorem digit?_of_isDigit (h : c.isDigit = true) : digit? c = some (c.toNat - '0'.toNat) := by
  have hrange : '0' ≤ c ∧ c ≤ '9' := by
    simpa [Char.isDigit, Char.le_def] using h
  rw [digit?, if_pos hrange]

theorem readDigits_eq (h : ∀ c ∈ cs, c.isDigit = true) (n : Nat) :
    readDigits 10 digit? n cs = some (Nat.ofDigitChars 10 cs n) := by
  induction cs generalizing n with
  | nil => rw [readDigits, Nat.ofDigitChars_nil]
  | cons c cs ih =>
    have hc := h c List.mem_cons_self
    rw [readDigits, digit?_of_isDigit hc, Nat.ofDigitChars_cons, Nat.mul_comm 10 n]
    exact ih (fun d hd => h d (List.mem_cons_of_mem c hd)) _

theorem natural?_eq (hne : cs ≠ []) (h : ∀ c ∈ cs, c.isDigit = true) :
    natural? cs = some (Nat.ofDigitChars 10 cs 0) := by
  cases cs with
  | nil => exact absurd rfl hne
  | cons c cs => exact readDigits_eq h 0

theorem unsigned64?_eq (hne : cs ≠ []) (h : ∀ c ∈ cs, c.isDigit = true)
    (hfits : Nat.ofDigitChars 10 cs 0 < 2 ^ 64) :
    unsigned64? cs = some (Nat.ofDigitChars 10 cs 0) ∧
      unsigned64? ('+' :: cs) = some (Nat.ofDigitChars 10 cs 0) := by
  have hread := natural?_eq hne h
  have hplain : unsigned64? cs = (natural? cs).filter (· < 0x10000000000000000) := by
    rw [unsigned64?]
    rintro ds rfl
    have hplus := h '+' List.mem_cons_self
    simp [Char.isDigit] at hplus
  have hsigned : unsigned64? ('+' :: cs) = (natural? cs).filter (· < 0x10000000000000000) := rfl
  have hword : Nat.ofDigitChars 10 cs 0 < 0x10000000000000000 := by omega
  rw [hplain, hsigned, hread, Option.filter_some, if_pos (decide_eq_true hword)]
  exact ⟨rfl, rfl⟩

/-! Numbers written in decimal. -/

theorem isDigit_of_mem_ofNat (h : c ∈ ofNat n) : c.isDigit = true :=
  Nat.isDigit_of_mem_toDigits (by decide) (by decide) h

theorem unsigned64?_ofNat (h : n < 2 ^ 64) : unsigned64? (ofNat n) = some n := by
  have hvalue : Nat.ofDigitChars 10 (ofNat n) 0 = n := Nat.ofDigitChars_ten_toDigits
  have hread := unsigned64?_eq Nat.toDigits_ne_nil (fun c hc => isDigit_of_mem_ofNat (n := n) hc)
    (by rw [← ofNat, hvalue]; exact h)
  rw [ofNat, hread.1, ← ofNat, hvalue]

theorem isDigit_of_mem_zeroPadded (h : c ∈ zeroPadded width n) : c.isDigit = true := by
  rw [zeroPadded] at h
  rcases List.mem_append.1 h with hzero | hdigit
  · rw [(List.mem_replicate.1 hzero).2]
    rfl
  · exact isDigit_of_mem_ofNat hdigit

theorem zeroPadded_ne_nil (width n : Nat) : zeroPadded width n ≠ [] :=
  List.append_ne_nil_of_right_ne_nil _ Nat.toDigits_ne_nil

theorem length_zeroPadded (hwidth : 0 < width) (h : n < 10 ^ width) :
    (zeroPadded width n).length = width := by
  have hle : (ofNat n).length ≤ width := (Nat.length_toDigits_le_iff (by decide) hwidth).2 h
  rw [zeroPadded, List.length_append, List.length_replicate]
  omega

theorem ofDigitChars_zeroPadded (width n : Nat) :
    Nat.ofDigitChars 10 (zeroPadded width n) 0 = n := by
  rw [zeroPadded, Nat.ofDigitChars_append, Nat.ofDigitChars_replicate_zero, Nat.mul_zero]
  exact Nat.ofDigitChars_ten_toDigits

theorem ofDigitChars_append_zeroPadded (hwidth : 0 < width) (h : n < 10 ^ width) :
    Nat.ofDigitChars 10 (ds ++ zeroPadded width n) 0 =
      Nat.ofDigitChars 10 ds 0 * 10 ^ width + n := by
  rw [Nat.ofDigitChars_append, Nat.ofDigitChars_eq_ofDigitChars_zero, length_zeroPadded hwidth h,
    ofDigitChars_zeroPadded, Nat.mul_comm]

end FleetControl.Text
