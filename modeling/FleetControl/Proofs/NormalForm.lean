import FleetControl.Proofs.Hostname

/-!
Which names one normalization settles. Dots are taken off the end after white space is, so a blank that
stands right before them comes to the end, and only the next normalization takes it off. Settled names,
and valid names are settled, may be replaced by their normal form wherever names are compared; no other
name may.
-/

namespace FleetControl.Hostname

open Text

variable {cs : List Char} {c : Char} {name : String}

def Settled (name : String) : Prop := normalize (normalize name) = normalize name

/-- Whatever is asked about the name, its normal form has the same answer. -/
structure Replaceable (name : String) : Prop where
  valid : isValid (normalize name) = isValid name
  pattern : ∀ host, covers (normalize name) host = covers name host
  host : ∀ pattern, covers pattern (normalize name) = covers pattern name
  existing : ∀ candidate, conflicts (normalize name) candidate = conflicts name candidate
  candidate : ∀ existing, conflicts existing (normalize name) = conflicts existing name

/-! The ends of a normal form. -/

theorem head?_normalForm (h : (normalForm cs).head? = some c) : isBlank c = false := by
  rw [normalForm, List.head?_map, Option.map_eq_some_iff] at h
  obtain ⟨d, hd, rfl⟩ := h
  rw [isBlank_toLower]
  exact head?_trim (head?_of_dropTrailing hd)

theorem normalForm_normalForm_iff : normalForm (normalForm cs) = normalForm cs ↔
    ∀ c, (normalForm cs).getLast? = some c → isBlank c = false := by
  constructor
  · intro h c hc
    -- Nothing can be trimmed off, or the second normal form would be the shorter one.
    have hlength : (normalForm cs).length ≤ (trim (normalForm cs)).length := by
      calc (normalForm cs).length
        _ = (normalForm (normalForm cs)).length := by rw [h]
        _ = (dropTrailing (· = '.') (trim (normalForm cs))).length := List.length_map _
        _ ≤ (trim (normalForm cs)).length := (isPrefix_dropTrailing _ _).length_le
    have htrim : trim (normalForm cs) = normalForm cs := (trim_sublist _).eq_of_length_le hlength
    rw [← htrim] at hc
    exact getLast?_dropTrailing hc
  · intro hend
    exact normalForm_eq_self (fun _ => head?_normalForm) hend (fun _ => getLast?_normalForm)
      fun _ => toLower_normalForm

theorem toList_normalize : (normalize name).toList = normalForm name.toList :=
  String.toList_ofList

theorem settled_iff_normalForm :
    Settled name ↔ normalForm (normalForm name.toList) = normalForm name.toList := by
  rw [Settled, normalize, toList_normalize, normalize]
  exact ⟨fun h => String.ofList_injective h, congrArg String.ofList⟩

theorem settled_iff_end : Settled name ↔
    ∀ c, (normalize name).toList.getLast? = some c → isBlank c = false := by
  rw [settled_iff_normalForm, normalForm_normalForm_iff, toList_normalize]

theorem settled_of_isValid (h : isValid name = true) : Settled name :=
  settled_iff_normalForm.2 (normalForm_normalize h)

/-! Comparing names. -/

theorem Settled.normalForm_normalize (h : Settled name) :
    normalForm (normalize name).toList = normalForm name.toList := by
  rw [toList_normalize, settled_iff_normalForm.1 h]

theorem Settled.labels_normalize (h : Settled name) : labels (normalize name) = labels name := by
  rw [labels, h.normalForm_normalize, labels]

theorem Settled.replaceable (h : Settled name) : Replaceable name where
  valid := by rw [isValid, h.normalForm_normalize, isValid]
  pattern host := by rw [covers, h.labels_normalize, covers]
  host pattern := by rw [covers, h.labels_normalize, covers]
  existing candidate := by rw [conflicts, h, conflicts]
  candidate existing := by rw [conflicts, h, conflicts]

theorem covers_self (name : String) : covers name name = true := covers_of_labels rfl

theorem labels_eq_of_covers {a b : String} (hab : covers a b = true) (hba : covers b a = true) :
    labels a = labels b := by
  rw [covers] at hab hba
  cases ha : labels a with
  | nil => exact absurd ha (splitOn_ne_nil _ _)
  | cons p ps =>
    rw [ha] at hab hba
    obtain ⟨q, hb, hp⟩ := labelsMatch_iff.1 hab
    rw [hb] at hba ⊢
    obtain ⟨p', heq, hq⟩ := labelsMatch_iff.1 hba
    obtain ⟨rfl, -⟩ := List.cons.inj heq
    rcases hp with rfl | rfl
    · rcases hq with rfl | rfl <;> rfl
    · rfl

theorem Replaceable.settled (h : Replaceable name) : Settled name := by
  have hover : covers (normalize name) name = true := (h.pattern name).trans (covers_self name)
  have hunder : covers name (normalize name) = true := (h.host name).trans (covers_self name)
  exact normalize_eq_of_labels (labels_eq_of_covers hover hunder)

/-- One normalization settles a name exactly when it leaves no white space at the end, and exactly the
names it settles may be replaced by their normal forms. All valid names are among them. -/
theorem settled_exactly (name : String) :
    (normalize (normalize name) = normalize name ↔
      ∀ c, (normalize name).toList.getLast? = some c → isBlank c = false) ∧
    (normalize (normalize name) = normalize name ↔ Replaceable name) ∧
    (isValid name = true → normalize (normalize name) = normalize name) :=
  ⟨settled_iff_end, ⟨Settled.replaceable, Replaceable.settled⟩, settled_of_isValid⟩

theorem settled_wildcard :
    isValid " *.Shop.example.. " = true ∧
      normalize (normalize " *.Shop.example.. ") = normalize " *.Shop.example.. " ∧
      Replaceable " *.Shop.example.. " := by
  have hvalid : isValid " *.Shop.example.. " = true := by decide +kernel
  obtain ⟨-, hreplaceable, hsettled⟩ := settled_exactly " *.Shop.example.. "
  exact ⟨hvalid, hsettled hvalid, hreplaceable.1 (hsettled hvalid)⟩

/-- With a blank before its last dot a name is not settled. It is not valid although its normal form is,
it does not cover what its normal form covers, and it conflicts with a name that it does not cover. -/
theorem blankBeforeDot_unsettled :
    normalize "shop.example ." = "shop.example " ∧
      normalize (normalize "shop.example .") = "shop.example" ∧
      isValid "shop.example ." = false ∧ isValid (normalize "shop.example .") = true ∧
      covers "shop.example ." "shop.example " = false ∧
      covers (normalize "shop.example .") "shop.example " = true ∧
      conflicts "shop.example ." "shop.example " = false ∧
      conflicts (normalize "shop.example .") "shop.example " = true ∧
      covers "*.example ." "shop.example" = false ∧ conflicts "*.example ." "shop.example" = true := by
  decide +kernel

end FleetControl.Hostname
