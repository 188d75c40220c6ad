import FleetControl.Proofs.Effect.Basic

/-!
The effect of replacing a product's route rules. Each target is read at most once; what is remembered
of it stays true because nothing is written in between.
-/

namespace FleetControl.Control

open Store Store.Work Store.Tables

variable {t t' : Tables} {p : Product}

theorem foreignHost?_eq_none {domains : List Domain} {i : Nat} {rules : List BasicRule}
    (h : Routes.foreignHost? domains i rules = none) :
    ∀ r ∈ rules, ∀ host ∈ r.hostNames, ∃ d ∈ domains, Hostname.covers d.name host = true := by
  induction rules generalizing i with
  | nil => simp
  | cons r rules ih =>
    rw [Routes.foreignHost?] at h
    split at h
    · cases h
    · rename_i hnone
      rw [List.find?_eq_none] at hnone
      intro s hs host hhost
      rcases List.mem_cons.1 hs with rfl | hs
      · simpa using hnone host hhost
      · exact ih h s hs host hhost

def Remembers (t : Tables) (product : ProductId) (known : Routes.Resolved) : Prop :=
  ∀ {n id}, known.get? n = some id → t.IsTarget product n id

theorem remembers_empty : Remembers t p.id ∅ := fun h => by simp at h

theorem Remembers.insert {known : Routes.Resolved} (hk : Remembers t p.id known) {n : String}
    {id : ClusterId} (hid : t.IsTarget p.id n id) : Remembers t p.id (known.insert n id) := by
  intro m i hm
  rw [SortedMap.get?_insert] at hm
  split at hm
  · cases hm
    rename_i heq
    rw [heq]
    exact hid
  · exact hk hm

theorem resolve_yields (h : t.Numbered) {ignore : Bool} {name : String} {known : Routes.Resolved}
    (hk : Remembers t p.id known) {found : ClusterId × Routes.Resolved}
    (hw : Yields answer t (Routes.resolve ignore p name known) found t') :
    t' = t ∧ t.IsTarget p.id name found.1 ∧ Remembers t p.id found.2 := by
  rw [Routes.resolve] at hw
  split at hw
  · rename_i id hid
    obtain ⟨rfl, rfl⟩ := yields_done.1 hw
    exact ⟨rfl, hk hid, hk⟩
  · simp only [yields_bind, yields_refuseIf, yields_pure] at hw
    obtain ⟨record, _, hrecord, cluster, _, hcluster, _, _, ⟨_, rfl⟩, rfl, rfl⟩ := hw
    obtain ⟨rfl, hstored, hname, howned⟩ := requireCluster_yields h hrecord
    obtain ⟨rfl, rfl, -⟩ := assembleCluster_yields h hcluster
    have htarget : IsTarget _ p.id name cluster.id := ⟨cluster.record, hstored, hname, howned⟩
    exact ⟨rfl, htarget, hk.insert htarget⟩

theorem resolveBasic_yields (h : t.Numbered) {ignore : Bool} {rules : List BasicRule}
    {known : Routes.Resolved} (hk : Remembers t p.id known)
    {found : List BasicRule × Routes.Resolved}
    (hw : Yields answer t (Routes.resolveBasic ignore p rules known) found t') :
    t' = t ∧ List.Forall₂ (ResolvedBasic t p.id) rules found.1 ∧ Remembers t p.id found.2 := by
  -- What is remembered grows along the list, and stays true of the tables.
  induction rules generalizing known found with
  | nil =>
    obtain ⟨rfl, rfl⟩ := yields_done.1 hw
    exact ⟨rfl, .nil, hk⟩
  | cons r rules ih =>
    rw [Routes.resolveBasic] at hw
    split at hw
    · rename_i hreserved
      simp only [yields_bind, yields_pure] at hw
      obtain ⟨rest, _, hrest, rfl, rfl⟩ := hw
      obtain ⟨rfl, hall, hk'⟩ := ih hk hrest
      refine ⟨rfl, .cons ⟨rfl, fun _ => rfl, fun hfree => ?_⟩ hall, hk'⟩
      rw [hreserved] at hfree
      cases hfree
    · rename_i hfree
      simp only [yields_bind, yields_pure] at hw
      obtain ⟨found, _, hfound, rest, _, hrest, rfl, rfl⟩ := hw
      obtain ⟨rfl, htarget, hk₁⟩ := resolve_yields h hk hfound
      obtain ⟨rfl, hall, hk'⟩ := ih hk₁ hrest
      exact ⟨rfl, .cons ⟨rfl, fun hreserved => absurd hreserved hfree, fun _ => ⟨_, rfl, htarget⟩⟩ hall,
        hk'⟩

theorem resolveAdvanced_yields (h : t.Numbered) {ignore : Bool} {rules : List AdvancedRule}
    {known : Routes.Resolved} (hk : Remembers t p.id known) {found : List AdvancedRule}
    (hw : Yields answer t (Routes.resolveAdvanced ignore p rules known) found t') :
    t' = t ∧ List.Forall₂ (ResolvedAdvanced t p.id) rules found := by
  induction rules generalizing known found with
  | nil =>
    obtain ⟨rfl, rfl⟩ := yields_done.1 hw
    exact ⟨rfl, .nil⟩
  | cons r rules ih =>
    simp only [Routes.resolveAdvanced, yields_bind, yields_pure] at hw
    obtain ⟨found, _, hfound, rest, _, hrest, rfl, rfl⟩ := hw
    obtain ⟨rfl, htarget, hk₁⟩ := resolve_yields h hk hfound
    obtain ⟨rfl, hall⟩ := ih hk₁ hrest
    exact ⟨rfl, .cons ⟨rfl, _, rfl, htarget⟩ hall⟩

theorem insert_erased (table : SortedMap ProductId RouteRules) (p : ProductId) (rules : RouteRules) :
    (table.erase p).insert p ((((table.erase p).get? p).getD .empty).append rules) =
      table.insert p rules := by
  refine SortedMap.ext fun i => ?_
  simp only [SortedMap.get?_insert, SortedMap.get?_erase, if_true, Option.getD_none]
  split
  · rfl
  · rfl

theorem replaceRules_effect (h : t.Numbered) (ignore : Bool) (name : String) (rules : RouteRules) :
    Effect ignore t (.replaceRules name rules) (t.perform (Routes.replace ignore name rules)).2 := by
  refine perform_guarded_cases (.idle _) fun valid =>
    perform_update_cases (.idle _) fun stored t' hw => ?_
  simp only [yields_bind, yields_ask] at hw
  obtain ⟨p, _, hp, _, _, hlock, domains, _, hdomains, hw⟩ := hw
  obtain ⟨rfl, hstored, rfl⟩ := requireProduct_yields h hp
  cases hlock
  cases hdomains
  split at hw
  · exact (yields_fail.1 hw).elim
  · rename_i hcovered
    simp only [yields_bind, yields_ask, yields_pure] at hw
    obtain ⟨basic, _, hbasic, advanced, _, hadvanced, _, _, herase, _, _, hcreate, rfl, rfl⟩ := hw
    obtain ⟨rfl, hall, hk⟩ := resolveBasic_yields h remembers_empty hbasic
    obtain ⟨rfl, hall'⟩ := resolveAdvanced_yields h hk hadvanced
    cases herase
    cases hcreate
    dsimp only
    rw [insert_erased]
    refine .rulesReplaced (by simpa using valid) hstored (fun r hr host hhost => ?_) hall hall'
    obtain ⟨d, hd, hcovers⟩ := foreignHost?_eq_none hcovered r hr host hhost
    obtain ⟨hget, hadm⟩ := h.domains.mem_select.1 hd
    exact ⟨d.id, d, hget, by simpa [DomainFilter.admits] using hadm, hcovers⟩

end FleetControl.Control
