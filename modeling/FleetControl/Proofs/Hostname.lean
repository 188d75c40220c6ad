import FleetControl.Hostname
import FleetControl.Proofs.Splitting
import Mathlib

/-!
Names that are valid are fixed by normalization, and their labels say which of them are wildcards.
Two registered names that do not conflict never cover the same host.
-/

namespace FleetControl.Hostname

open Text

variable {c : Char} {cs : List Char} {name a b host : String}

/-! Normal forms. -/

theorem isBlank_of_isLabelChar (h : isLabelChar c = true) : isBlank c = false := by
  simp only [isLabelChar, Char.isAlphanum, Char.isAlpha, Char.isUpper, Char.isLower, Char.isDigit,
    Bool.or_eq_true, Bool.and_eq_true, decide_eq_true_eq, ge_iff_le, UInt32.le_iff_toNat_le] at h
  simp only [isBlank, Bool.or_eq_false_iff, Bool.and_eq_false_iff, decide_eq_false_iff_not,
    beq_eq_false_iff_ne]
  have hdash : c = '-' → c.toNat = 45 := by rintro rfl; rfl
  have hunder : c = '_' → c.toNat = 95 := by rintro rfl; rfl
  have hnat : c.val.toNat = c.toNat := rfl
  simp only [hnat] at h
  have hrange : (65 ≤ c.toNat ∧ c.toNat ≤ 90) ∨ (97 ≤ c.toNat ∧ c.toNat ≤ 122) ∨
      (48 ≤ c.toNat ∧ c.toNat ≤ 57) ∨ c.toNat = 45 ∨ c.toNat = 95 := by
    rcases h with ((h | h) | h) | h
    · rcases h with h | h
      · exact Or.inl h
      · exact Or.inr (Or.inl h)
    · exact Or.inr (Or.inr (Or.inl h))
    · exact Or.inr (Or.inr (Or.inr (Or.inl (hdash h))))
    · exact Or.inr (Or.inr (Or.inr (Or.inr (hunder h))))
  omega

theorem isBlank_toLower (c : Char) : isBlank c.toLower = isBlank c := by
  by_cases hup : c.isUpper = true
  · -- Letters are no blanks, in either case.
    have halpha : c.isAlpha = true := by rw [Char.isAlpha, hup]; rfl
    have hletter : ∀ d : Char, d.isAlpha = true → isBlank d = false :=
      fun d hd => isBlank_of_isLabelChar (by simp [isLabelChar, Char.isAlphanum, hd])
    rw [hletter c halpha, hletter _ (by rw [Char.isAlpha_toLower_eq_isAlpha, halpha])]
  · rw [Char.toLower_eq_of_not_isUpper hup]

theorem normalForm_eq_self (hstart : ∀ c, cs.head? = some c → isBlank c = false)
    (hend : ∀ c, cs.getLast? = some c → isBlank c = false)
    (hdot : ∀ c, cs.getLast? = some c → c ≠ '.') (hlower : ∀ c ∈ cs, c.toLower = c) :
    normalForm cs = cs := by
  have hkept : cs.dropWhile isBlank = cs := by
    cases cs with
    | nil => rfl
    | cons c cs => rw [List.dropWhile_cons, hstart c rfl]; rfl
  have hdots : dropTrailing (· = '.') cs = cs :=
    dropTrailing_eq_self fun c hc => decide_eq_false (hdot c hc)
  rw [normalForm, trim, hkept, dropTrailing_eq_self hend, hdots]
  rw [List.map_congr_left hlower, List.map_id']

theorem toLower_normalForm (h : c ∈ normalForm cs) : c.toLower = c := by
  obtain ⟨d, -, rfl⟩ := List.mem_map.1 h
  exact Char.toLower_toLower_eq_toLower d

theorem getLast?_normalForm (h : (normalForm cs).getLast? = some c) : c ≠ '.' := by
  rw [normalForm, List.getLast?_map, Option.map_eq_some_iff] at h
  obtain ⟨d, hd, rfl⟩ := h
  have hdot : d ≠ '.' := of_decide_eq_false (getLast?_dropTrailing hd)
  intro hlower
  have halpha : d.isAlpha = false := by
    rw [← Char.isAlpha_toLower_eq_isAlpha, hlower]
    rfl
  have hupper : ¬ d.isUpper = true := by
    intro hup
    rw [Char.isAlpha, hup] at halpha
    cases halpha
  rw [Char.toLower_eq_of_not_isUpper hupper] at hlower
  exact hdot hlower

/-! Valid names. -/

theorem not_isLabel_star : isLabel ['*'] = false := by decide

theorem labels_of_isValid (h : isValid name = true) :
    (isWildcard (normalize name) = true ∧
      ∃ ls, labels name = ['*'] :: ls ∧ ∀ l ∈ ls, isLabel l = true) ∨
    (isWildcard (normalize name) = false ∧ ∀ l ∈ labels name, isLabel l = true) := by
  simp only [isValid, Bool.and_eq_true, List.all_eq_true] at h
  obtain ⟨-, hlabels⟩ := h
  rw [isWildcard, normalize, String.toList_ofList, labels]
  rw [withoutWildcard] at hlabels
  cases hhead : ['*', '.'].isPrefixOf? (normalForm name.toList) with
  | none =>
    rw [hhead] at hlabels
    refine Or.inr ⟨?_, hlabels⟩
    cases hp : ['*', '.'].isPrefixOf (normalForm name.toList) with
    | false => rfl
    | true =>
      obtain ⟨rest, hrest⟩ := List.isPrefixOf_iff_prefix.1 hp
      rw [isPrefixOf?_eq_some.2 hrest.symm] at hhead
      cases hhead
  | some body =>
    rw [hhead] at hlabels
    have hform : normalForm name.toList = '*' :: '.' :: body := isPrefixOf?_eq_some.1 hhead
    rw [hform]
    refine Or.inl ⟨rfl, splitOn '.' body, rfl, hlabels⟩

theorem isBlank_of_mem_normalForm (h : isValid name = true) (hc : c ∈ normalForm name.toList) :
    isBlank c = false := by
  have hlabel : ∀ l, isLabel l = true → ∀ c ∈ l, isBlank c = false := by
    intro l hl c hc
    simp only [isLabel, Bool.and_eq_true, List.all_eq_true] at hl
    exact isBlank_of_isLabelChar (hl.2 c hc)
  rcases mem_splitOn '.' hc with rfl | ⟨w, hw, hcw⟩
  · rfl
  · rcases labels_of_isValid h with ⟨-, ls, hls, hall⟩ | ⟨-, hall⟩
    · rw [labels] at hls
      rw [hls] at hw
      rcases List.mem_cons.1 hw with rfl | hw
      · rcases List.mem_singleton.1 hcw with rfl
        rfl
      · exact hlabel w (hall w hw) c hcw
    · exact hlabel w (hall w hw) c hcw

theorem normalForm_normalize (h : isValid name = true) :
    normalForm (normalForm name.toList) = normalForm name.toList :=
  normalForm_eq_self (fun _ hc => isBlank_of_mem_normalForm h (List.mem_of_mem_head? hc))
    (fun _ hc => isBlank_of_mem_normalForm h (List.mem_of_getLast? hc))
    (fun _ hc => getLast?_normalForm hc) fun _ hc => toLower_normalForm hc

/-- A name that can be registered: valid, and written the way it is stored. -/
structure Registered (name : String) : Prop where
  valid : isValid name = true
  normal : normalize name = name

theorem registered_normalize (h : isValid name = true) : Registered (normalize name) := by
  have hform : normalForm (normalize name).toList = normalForm name.toList := by
    rw [normalize, String.toList_ofList, normalForm_normalize h]
  constructor
  · rw [isValid, hform]
    exact h
  · rw [normalize, hform]
    rfl

/-! Coverage. -/

theorem normalize_eq_of_labels (h : labels a = labels b) : normalize a = normalize b := by
  rw [normalize, normalize, splitOn_injective h]

theorem conflicts_comm (a b : String) : conflicts a b = conflicts b a := by
  rw [conflicts, conflicts]
  by_cases hab : normalize a = normalize b
  · rw [if_pos hab, if_pos hab.symm]
  · rw [if_neg hab, if_neg fun h => hab h.symm]
    cases isWildcard (normalize a) <;> cases isWildcard (normalize b) <;> rfl

theorem labelsMatch_iff {p : List Char} {ps hs : List (List Char)} :
    labelsMatch (p :: ps) hs = true ↔ ∃ h, hs = h :: ps ∧ (p = ['*'] ∨ p = h) := by
  cases hs with
  | nil => simp [labelsMatch]
  | cons h hs =>
    simp only [labelsMatch, Bool.and_eq_true, Bool.or_eq_true, decide_eq_true_eq, List.cons.injEq]
    constructor
    · rintro ⟨hp, rfl⟩
      exact ⟨h, ⟨rfl, rfl⟩, hp⟩
    · rintro ⟨h', ⟨rfl, rfl⟩, hp⟩
      exact ⟨hp, rfl⟩

theorem covers_of_labels (h : labels host = labels name) : covers name host = true := by
  rw [covers, h]
  cases hlabels : labels name with
  | nil => rfl
  | cons l ls => exact labelsMatch_iff.2 ⟨l, rfl, Or.inr rfl⟩

theorem conflicts_of_covers (ha : Registered a) (hb : Registered b)
    (hwild : isWildcard (normalize a) = true) (hplain : isWildcard (normalize b) = false)
    (hcovers : covers a b = true) : conflicts a b = true := by
  rw [conflicts, hwild, hplain, ha.normal, hb.normal, hcovers]
  exact ite_self true

theorem not_covers_both (ha : Registered a) (hb : Registered b) (hclear : conflicts a b = false)
    (hca : covers a host = true) (hcb : covers b host = true) : False := by
  have hne : labels a ≠ labels b := by
    intro hlabels
    rw [conflicts, if_pos (normalize_eq_of_labels hlabels)] at hclear
    cases hclear
  rw [covers] at hca hcb
  -- A proper name covers nothing but itself, a wildcard whatever has its other labels.
  have hplain : ∀ {n}, (∀ l ∈ labels n, isLabel l = true) →
      labelsMatch (labels n) (labels host) = true → labels host = labels n := by
    intro n hall hmatch
    cases hn : labels n with
    | nil => exact absurd hn (splitOn_ne_nil _ _)
    | cons p ps =>
      rw [hn] at hmatch hall
      obtain ⟨h, hhost, hp⟩ := labelsMatch_iff.1 hmatch
      rcases hp with rfl | rfl
      · have hstar := hall _ List.mem_cons_self
        rw [not_isLabel_star] at hstar
        cases hstar
      · exact hhost
  rcases labels_of_isValid ha.valid with ⟨hwa, as, hla, -⟩ | ⟨hwa, halla⟩ <;>
    rcases labels_of_isValid hb.valid with ⟨hwb, bs, hlb, -⟩ | ⟨hwb, hallb⟩
  · rw [hla] at hca
    rw [hlb] at hcb
    obtain ⟨x, hx, -⟩ := labelsMatch_iff.1 hca
    obtain ⟨y, hy, -⟩ := labelsMatch_iff.1 hcb
    rw [hx] at hy
    cases hy
    exact hne (hla.trans hlb.symm)
  · have hcovers : covers a b = true := by rw [covers, ← hplain hallb hcb, hca]
    rw [conflicts_of_covers ha hb hwa hwb hcovers] at hclear
    cases hclear
  · have hcovers : covers b a = true := by rw [covers, ← hplain halla hca, hcb]
    rw [conflicts_comm, conflicts_of_covers hb ha hwb hwa hcovers] at hclear
    cases hclear
  · exact hne ((hplain halla hca).symm.trans (hplain hallb hcb))

end FleetControl.Hostname
