import FleetControl.Proofs.Hostname
import FleetControl.Proofs.Names
import FleetControl.Proofs.Validation

/-!
Domains belong to one product each. All stored names are registered names, no two of them conflict,
and so no host is covered by two domains.
-/

namespace FleetControl

theorem Domain.isValid_of_findings {p : Domain.Proposal} (h : p.findings.refusal? = none) :
    Hostname.isValid p.name = true := by
  rw [Findings.refusal?_eq_none, Domain.Proposal.findings, Findings.isClean_ofField,
    Domain.nameObjection] at h
  split at h
  · assumption
  · cases h

namespace Store.Tables

open Hostname

variable {t t' : Tables} {ignoreReadiness : Bool} {c : Call} {host : String}

structure Exclusive (t : Tables) : Prop where
  registered : ∀ {i d}, t.domains.get? i = some d → Registered d.name
  clear : ∀ {i j d e}, t.domains.get? i = some d → t.domains.get? j = some e → i ≠ j →
    conflicts d.name e.name = false

theorem exclusive_start : Exclusive start := by
  constructor <;> intro i <;> simp [start]

theorem Exclusive.effect (h : Exclusive t) (he : Effect ignoreReadiness t c t') : Exclusive t' := by
  cases he with
  | domainCreated valid _ clear =>
    have hnew := registered_normalize (Domain.isValid_of_findings valid)
    constructor
    · intro i d hd
      rcases SortedMap.get?_insert_eq_some.1 hd with ⟨-, rfl⟩ | ⟨-, hd⟩
      · exact hnew
      · exact h.registered hd
    · intro i j d e hd he hij
      rw [SortedMap.get?_insert] at hd he
      -- Both are the new domain, one is, or none.
      split at hd <;> split at he
      · rename_i hi hj
        exact absurd (hi.trans hj.symm) hij
      · cases hd
        rw [conflicts_comm]
        exact clear he
      · cases he
        exact clear hd
      · exact h.clear hd he hij
  | domainDeleted =>
    constructor
    · intro i d hd
      exact h.registered (SortedMap.get?_erase_eq_some.1 hd).2
    · intro i j d e hd he hij
      exact h.clear (SortedMap.get?_erase_eq_some.1 hd).2 (SortedMap.get?_erase_eq_some.1 he).2 hij
  | _ => exact ⟨h.registered, h.clear⟩

theorem Reachable.exclusive (h : t.Reachable) : Exclusive t :=
  h.invariant exclusive_start fun _ hi he => hi.effect he

theorem Exclusive.eq_of_covers (h : Exclusive t) {i j : DomainId} {d e : Domain}
    (hd : t.domains.get? i = some d) (he : t.domains.get? j = some e)
    (hcd : covers d.name host = true) (hce : covers e.name host = true) : i = j := by
  by_contra hij
  exact not_covers_both (h.registered hd) (h.registered he) (h.clear hd he hij) hcd hce

theorem Exclusive.eq_of_name (h : Exclusive t) {i j : DomainId} {d e : Domain}
    (hd : t.domains.get? i = some d) (he : t.domains.get? j = some e) (hname : d.name = e.name) :
    i = j := by
  by_contra hij
  have hclear := h.clear hd he hij
  rw [conflicts, if_pos (by rw [hname])] at hclear
  cases hclear

theorem Exclusive.distinct (h : Exclusive t) : Distinct t.domains Domain.name :=
  fun _ _ _ _ => h.eq_of_name

/-- After any events, names are stored in normal form, no two of them conflict, and of all products'
domains at most one covers a given host, whatever text the host is. -/
theorem run_ownership (events : List Event) :
    (∀ i d, (start.run events).domains.get? i = some d →
      isValid d.name = true ∧ normalize d.name = d.name) ∧
    (∀ i j d e, (start.run events).domains.get? i = some d →
      (start.run events).domains.get? j = some e → i ≠ j →
      conflicts d.name e.name = false ∧ conflicts e.name d.name = false) ∧
    ∀ host i j d e, (start.run events).domains.get? i = some d →
      (start.run events).domains.get? j = some e →
      covers d.name host = true → covers e.name host = true → i = j := by
  have hreach : (start.run events).Reachable := ⟨events, rfl⟩
  have hexclusive := hreach.exclusive
  refine ⟨?_, ?_, ?_⟩
  · intro i d hd
    have hname := hexclusive.registered hd
    exact ⟨hname.valid, hname.normal⟩
  · intro i j d e hd he hij
    have hclear := hexclusive.clear hd he hij
    exact ⟨hclear, by rw [conflicts_comm, hclear]⟩
  · intro host i j d e hd he hcd hce
    exact hexclusive.eq_of_covers hd he hcd hce

end Store.Tables
end FleetControl
