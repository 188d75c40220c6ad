import FleetControl.Proofs.Domains

/-!
Hosts of stored rules and the domains they are routed under. Rules are only stored when every host is
covered by a domain of the product, up to spelling and wildcards; a domain is only deleted when no
rule lists it, but that is decided by comparing spellings. So coverage outlasts everything except the
deletion of a domain that covers a host under another spelling.
-/

namespace FleetControl.Store.Tables

open Control Work Hostname

variable {t t' : Tables} {ignoreReadiness : Bool} {c : Call}

def Covered (t : Tables) : Prop :=
  ∀ p rules, t.routeRules.get? p = some rules → ∀ r ∈ rules.basic, ∀ host ∈ r.hostNames,
    ∃ i d, t.domains.get? i = some d ∧ d.productId = p ∧ covers d.name host = true

/-- The call deletes a domain that covers a listed host under another spelling. -/
def Uncovers (t : Tables) : Call → Prop
  | .deleteDomain product name =>
    ∃ p d, t.products.get? p.id = some p ∧ p.name = product ∧
      t.domains.get? d.id = some d ∧ d.productId = p.id ∧ d.name = normalize name ∧
      d.usedByTlsPolicy = false ∧
      (∀ i rules, t.routeRules.get? i = some rules → rules.referencesHost d.name = false) ∧
      ∃ rules, t.routeRules.get? p.id = some rules ∧
        ∃ r ∈ rules.basic, ∃ host ∈ r.hostNames, covers d.name host = true
  | _ => False

theorem covered_start : Covered start := by
  intro p rules hrules
  simp [start] at hrules

theorem Covered.effect (h : Covered t) (hn : t.Numbered) (he : Effect ignoreReadiness t c t')
    (hkeep : ∀ product name, c ≠ .deleteDomain product name) : Covered t' := by
  cases he with
  | productDeleted =>
    intro p rules hrules
    exact h p rules (SortedMap.get?_erase_eq_some.1 hrules).2
  | domainCreated =>
    intro p rules hrules r hr host hhost
    obtain ⟨i, d, hd, howner, hcovers⟩ := h p rules hrules r hr host hhost
    exact ⟨i, d, hn.domains.get?_insert_next hd _, howner, hcovers⟩
  | domainDeleted => exact absurd rfl (hkeep _ _)
  | rulesReplaced _ _ covered basic =>
    -- Resolving a rule changes its cluster id and leaves its hosts alone.
    intro p rules hrules
    rw [SortedMap.get?_insert] at hrules
    split at hrules
    · rename_i hp
      cases hrules
      intro r hr host hhost
      obtain ⟨r₀, hr₀, heq, -⟩ := exists_left_of_forall₂ basic hr
      rw [heq] at hhost
      rw [hp]
      exact covered r₀ hr₀ host hhost
    · exact h p rules hrules
  | _ => exact h

/-! Deleting a domain. -/

theorem requireProduct_finds (hn : t.Numbered) (hnamed : Named t) {p : Product}
    (hp : t.products.get? p.id = some p) : Yields answer t (requireProduct p.name) p t := by
  have hhead : (select t.products (ProductFilter.admits { name := some p.name })
      Product.name).head? = some p := by
    apply hn.products.head?_select_of_unique hp
    · simp [ProductFilter.admits]
    · intro q hq hadm
      have hname : q.name = p.name := by simpa [ProductFilter.admits] using hadm
      exact Indexed.eq_of_id_eq hp hq (hnamed.products q.id p.id q p hq hp hname)
  simp only [requireProduct, yields_bind, yields_ask, yields_require]
  exact ⟨_, t, rfl, hhead, rfl⟩

theorem deleteDomain_removes (hn : t.Numbered) (hnamed : Named t) (hexclusive : Exclusive t)
    {p : Product} {d : Domain} {name : String} (hp : t.products.get? p.id = some p)
    (hd : t.domains.get? d.id = some d) (howned : d.productId = p.id)
    (hname : d.name = normalize name) (hplain : d.usedByTlsPolicy = false)
    (hunrouted : ∀ i rules, t.routeRules.get? i = some rules →
      rules.referencesHost d.name = false) :
    t.perform (Domains.delete p.name name) =
      (.ok (), { t with domains := t.domains.erase d.id }) := by
  have hhead : (select t.domains (DomainFilter.admits
      { productId := some p.id, name := some (normalize name) }) Domain.name).head? = some d := by
    apply hn.domains.head?_select_of_unique hd
    · simp [DomainFilter.admits, howned, hname]
    · intro e he hadm
      have hsame : e.name = d.name := by
        rw [hname]
        simp only [DomainFilter.admits, Option.all_some, Bool.and_eq_true,
          decide_eq_true_eq] at hadm
        exact hadm.2
      exact Indexed.eq_of_id_eq hd he (hexclusive.eq_of_name he hd hsame)
  have hfree : Yields answer t (hostInRules d.name) false t := by
    simp only [hostInRules, yields_bind, yields_ask, yields_pure]
    refine ⟨_, t, rfl, ?_, rfl⟩
    rw [List.any_eq_false]
    intro rules hrules
    obtain ⟨i, hi⟩ := SortedMap.mem_values.1 hrules
    rw [SortedMap.get?_filter, Option.filter_eq_some_iff] at hi
    simp [hunrouted i rules hi.1]
  have hwrite : answer (.deleteDomain d.id) t =
      (.ok (), { t with domains := t.domains.erase d.id }) := by
    rw [answer, change, hd]
  -- The whole program is stated once, so that the facts above can be read off in its order.
  have hrun : Yields answer t (do
      let product ← requireProduct p.name
      let found ← ask (.fetchDomains
        { productId := some product.id, name := some (normalize name) })
      let domain ← require (.notExist "Domain" (normalize name)) found.head?
      refuseIf (Domains.tlsPolicyFault domain) domain.usedByTlsPolicy
      let routed ← hostInRules domain.name
      refuseIf (Domains.stillRouted domain) routed
      ask (.deleteDomain domain.id)) () { t with domains := t.domains.erase d.id } := by
    simp only [yields_bind, yields_ask, yields_require, yields_refuseIf]
    exact ⟨p, t, requireProduct_finds hn hnamed hp, _, t, rfl, d, t, ⟨hhead, rfl⟩, (), t,
      ⟨hplain, rfl⟩, false, t, hfree, (), t, ⟨rfl, rfl⟩, hwrite⟩
  rw [Domains.delete, perform]
  rw [Yields] at hrun
  rw [hrun]

theorem Covered.deleteDomain_iff (h : Covered t) (hn : t.Numbered) (hnamed : Named t)
    (hexclusive : Exclusive t) (product name : String) :
    Covered (t.perform (Domains.delete product name)).2 ↔
      ¬ Uncovers t (.deleteDomain product name) := by
  constructor
  · -- The host that was covered by the domain has no other cover, for domains are exclusive.
    rintro hafter ⟨p, d, hp, rfl, hd, howned, hname, hplain, hunrouted, rules, hrules, r, hr, host,
      hhost, hcovers⟩
    rw [deleteDomain_removes hn hnamed hexclusive hp hd howned hname hplain hunrouted] at hafter
    obtain ⟨j, e, he, -, hcovers'⟩ := hafter p.id rules hrules r hr host hhost
    rw [SortedMap.get?_erase] at he
    split at he
    · cases he
    · rename_i hj
      exact hj (hexclusive.eq_of_covers he hd hcovers' hcovers)
  · intro hkeep
    have heffect : Effect false t (.deleteDomain product name)
        (t.perform (Domains.delete product name)).2 := deleteDomain_effect false hn product name
    generalize (t.perform (Domains.delete product name)).2 = t' at heffect
    cases heffect with
    | idle => exact h
    | @domainDeleted p _ d storedProduct stored owned named plain unrouted =>
      intro q rules hrules r hr host hhost
      obtain ⟨i, e, he, howner, hcovers⟩ := h q rules hrules r hr host hhost
      by_cases hi : i = d.id
      · rw [hi, stored] at he
        cases he
        rw [← howner, owned] at hrules
        exact absurd ⟨p, d, storedProduct, rfl, stored, owned, named, plain,
          fun i rules hi => unrouted hi, rules, hrules, r, hr, host, hhost, hcovers⟩ hkeep
      · exact ⟨i, e, by rw [SortedMap.get?_erase, if_neg hi, he], howner, hcovers⟩

/-! Runs. -/

def UncoversBy (t : Tables) : Event → Prop
  | .call _ _ c => Uncovers t c
  | .publish _ _ => False

theorem Reachable.covered_after_iff (h : t.Reachable) (hc : Covered t) (e : Event) :
    Covered (t.after e) ↔ ¬ UncoversBy t e := by
  cases e with
  | publish now p =>
    have heffect := publish_effect now p t
    exact iff_of_true (hc.effect h.numbered heffect fun _ _ hne => by cases hne) fun hnot => hnot
  | call settings now c =>
    by_cases hdelete : ∃ product name, c = .deleteDomain product name
    · obtain ⟨product, name, rfl⟩ := hdelete
      exact hc.deleteDomain_iff h.numbered h.named h.exclusive product name
    · have hkeep : ∀ product name, c ≠ .deleteDomain product name :=
        fun product name hc => hdelete ⟨product, name, hc⟩
      have heffect := call_effect h.numbered settings now c
      refine iff_of_true (hc.effect h.numbered heffect hkeep) fun huncovers => ?_
      cases c <;> first | exact huncovers | exact hkeep _ _ rfl

/-- Along a run all listed hosts stay covered as long as, and only as long as, no domain is deleted
that covers one of them under another spelling. -/
theorem covered_run_iff (events : List Event) :
    (∀ n, Covered (start.run (events.take n))) ↔
      ∀ n e, events[n]? = some e → ¬ UncoversBy (start.run (events.take n)) e := by
  have hstep : ∀ {n e}, events[n]? = some e →
      start.run (events.take (n + 1)) = (start.run (events.take n)).after e := by
    intro n e he
    rw [List.take_add_one, he, run_append]
    rfl
  constructor
  · intro hall n e he
    have hreach : (start.run (events.take n)).Reachable := ⟨_, rfl⟩
    rw [← hreach.covered_after_iff (hall n), ← hstep he]
    exact hall (n + 1)
  · intro hnone n
    -- The prefixes of the run grow by one event, and the step lemma needs the prefix covered.
    induction n with
    | zero => exact covered_start
    | succ n ih =>
      cases he : events[n]? with
      | none =>
        rw [List.take_add_one, he, Option.toList_none, List.append_nil]
        exact ih
      | some e =>
        have hreach : (start.run (events.take n)).Reachable := ⟨_, rfl⟩
        rw [hstep he, hreach.covered_after_iff ih]
        exact hnone n e he

/-- A rule for one host under a wildcard domain, and then the deletion of that domain. -/
def wildcardDeleted : List Event :=
  [.call {} ⟨0⟩ (.createProduct ⟨"shop", "", [], []⟩),
    .call {} ⟨0⟩ (.createPool "shop" ⟨"web", .static, []⟩),
    .call {} ⟨0⟩ (.createSubCluster "shop" ⟨"east", "web", ""⟩),
    .call {} ⟨0⟩ (.createCluster "shop" ⟨"front", "", {}, {}, {}, ["east"], none⟩),
    .call {} ⟨0⟩ (.createDomain "shop" ⟨"*.shop.example.com", false, false⟩),
    .call {} ⟨0⟩ (.replaceRules "shop" ⟨[⟨["a.shop.example.com"], [], "front", none, ""⟩],
      [⟨"rest", "default_t()", "front", none, ""⟩]⟩),
    .call {} ⟨0⟩ (.deleteDomain "shop" "*.shop.example.com")]

theorem wildcardDeleted_uncovered : ¬ Covered (start.run wildcardDeleted) := by
  intro hcovered
  have hrules : (start.run wildcardDeleted).routeRules.get? ⟨2⟩ =
      some ⟨[⟨["a.shop.example.com"], [], "front", some ⟨5⟩, ""⟩],
        [⟨"rest", "default_t()", "front", some ⟨5⟩, ""⟩]⟩ := by decide +kernel
  have hdomains : (start.run wildcardDeleted).domains.entries = [] := by decide +kernel
  obtain ⟨i, d, hd, -⟩ := hcovered ⟨2⟩ _ hrules _ List.mem_cons_self _ List.mem_cons_self
  rw [SortedMap.get?, hdomains] at hd
  cases hd

end FleetControl.Store.Tables
