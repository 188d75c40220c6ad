import FleetControl.Validation

/-!
What it means that a request was let in. Findings are clean when those on each of their parts are, and
a value without objection is within its bounds.
-/

namespace FleetControl

namespace Findings

@[simp] theorem isClean_append {f g : Findings} :
    (f ++ g).isClean = true ↔ f.isClean = true ∧ g.isClean = true := by
  show (both f g).isClean = true ↔ _
  simp only [both, isClean, Bool.and_eq_true, Bool.not_eq_true', Bool.or_eq_false_iff,
    List.isEmpty_iff, List.append_eq_nil_iff]
  exact and_and_and_comm

@[simp] theorem isClean_inside {f : Findings} : f.inside.isClean = true ↔ f.isClean = true := by
  simp [inside, isClean]

@[simp] theorem isClean_ofField {name : String} {o : Option Objection} :
    (ofField name o).isClean = true ↔ o = none := by
  cases o <;> simp [ofField, isClean, clean]

theorem refusal?_eq_none {f : Findings} : f.refusal? = none ↔ f.isClean = true := by
  rw [refusal?]
  split <;> simp_all

end Findings

namespace Validation

theorem range_eq_none {low high : Option Int} {message : Option String} {n : Int} :
    range low high message n = none ↔ (∀ l ∈ low, l ≤ n) ∧ ∀ h ∈ high, n ≤ h := by
  simp [range, Option.all_eq_true]

theorem entityName_eq_none {s : String} : entityName s = none ↔ isEntityName s = true := by
  rw [entityName]
  split <;> simp_all

theorem ne_empty_of_isEntityName {s : String} (h : isEntityName s = true) : s ≠ "" := by
  rintro rfl
  exact absurd h (by decide)

end Validation
end FleetControl
