import FleetControl.Proofs.Effect.Basic

/-!
The effects of the managers of products, pools, sub-clusters, domains and certificates: each call
checks, writes one table and is done.
-/

namespace FleetControl.Control

open Store Store.Work Store.Tables

variable {t : Tables} (ignoreReadiness : Bool)

theorem createProduct_effect (h : t.Numbered) (d : Product.Draft) :
    Effect ignoreReadiness t (.createProduct d) (t.perform (Products.create d)).2 := by
  refine perform_guarded_cases (.idle _) fun valid =>
    perform_update_cases (.idle _) fun p t' hw => ?_
  simp only [yields_bind, yields_ask, yields_refuseIf, answer] at hw
  obtain ⟨same, _, hsame, _, _, ⟨hempty, rfl⟩, hcreate⟩ := hw
  cases hsame
  cases hcreate
  refine .productCreated valid fun {i p} hp => ?_
  have := h.products.not_admitted (by simpa using hempty) hp
  simpa [ProductFilter.admits] using this

theorem updateProduct_effect (h : t.Numbered) (name : String) (change : Product.Change) :
    Effect ignoreReadiness t (.updateProduct name change) (t.perform (Products.update name change)).2 := by
  refine perform_guarded_cases (.idle _) fun valid =>
    perform_update_cases (.idle _) fun p t' hw => ?_
  simp only [yields_bind, yields_ask, yields_refuseIf, yields_pure] at hw
  obtain ⟨p, _, hp, _, _, ⟨hordinary, rfl⟩, _, _, hwrite, _, rfl⟩ := hw
  obtain ⟨rfl, hstored, rfl⟩ := requireProduct_yields h hp
  obtain ⟨_, _, rfl⟩ := change_ok hwrite
  exact .productUpdated valid hstored hordinary

theorem deleteProduct_effect (h : t.Numbered) (name : String) :
    Effect ignoreReadiness t (.deleteProduct name) (t.perform (Products.delete name)).2 := by
  refine perform_update_cases (.idle _) fun _ t' hw => ?_
  simp only [yields_bind, yields_ask, yields_refuseIf] at hw
  obtain ⟨p, _, hp, _, _, ⟨hordinary, rfl⟩, cs, _, hcs, ss, _, hss, qs, _, hqs, ds, _, hds, hw⟩ := hw
  obtain ⟨rfl, hstored, rfl⟩ := requireProduct_yields h hp
  cases hcs; cases hss; cases hqs; cases hds
  split at hw
  · exact ((yields_fail).1 hw).elim
  · rename_i howned
    simp only [Products.owned?, List.find?_eq_none, List.mem_cons, List.not_mem_nil, or_false,
      forall_eq_or_imp, forall_eq, decide_eq_true_eq, Nat.not_lt, Nat.le_zero,
      List.length_eq_zero_iff] at howned
    obtain ⟨hc, hs, hq, hd⟩ := howned
    simp only [yields_bind, yields_ask, answer] at hw
    obtain ⟨_, _, hrules, hwrite⟩ := hw
    cases hrules
    obtain ⟨_, _, rfl⟩ := change_ok hwrite
    refine .productDeleted hstored hordinary ?_ ?_ ?_ ?_
    · intro i c hget
      simpa [ClusterFilter.admits] using h.clusters.not_admitted hc hget
    · intro i s hget
      simpa [SubClusterFilter.admits] using h.subClusters.not_admitted hs hget
    · intro i q hget
      simpa [PoolFilter.admits] using h.pools.not_admitted hq hget
    · intro i d hget
      simpa [DomainFilter.admits] using h.domains.not_admitted hd hget

/-! Pools. -/

theorem qualified_yields {t' : Tables} {owner : Product} {name full : String}
    (hw : Yields answer t (Pools.qualified owner name) full t') :
    t' = t ∧ Pool.qualify owner.name name = .ok full := by
  simp only [Pools.qualified, yields_ofExcept, mapError_eq_ok] at hw
  exact ⟨hw.2.symm, hw.1⟩

theorem requireOwned_yields {t' : Tables} (h : t.Numbered) {p : Product} {name : String} {pool : Pool}
    (hw : Yields answer t (Pools.requireOwned p name) pool t') :
    t' = t ∧ Pool.qualify p.name name = .ok pool.name ∧ t.pools.get? pool.id = some pool ∧
      pool.productId = p.id := by
  simp only [Pools.requireOwned, yields_bind, yields_refuseIf, yields_pure] at hw
  obtain ⟨full, _, hfull, found, _, hfound, _, _, ⟨howned, rfl⟩, rfl, rfl⟩ := hw
  obtain ⟨rfl, hqualified⟩ := qualified_yields hfull
  obtain ⟨rfl, hstored, rfl⟩ := requirePool_yields h hfound
  exact ⟨rfl, hqualified, hstored, by simpa using howned⟩

theorem createPool_effect (h : t.Numbered) (name : String) (proposal : Pool.Proposal) :
    Effect ignoreReadiness t (.createPool name proposal) (t.perform (Pools.create name proposal)).2 := by
  refine perform_guarded_cases (.idle _) fun valid =>
    perform_update_cases (.idle _) fun q t' hw => ?_
  simp only [yields_bind] at hw
  obtain ⟨p, _, hp, full, _, hfull, hw⟩ := hw
  obtain ⟨rfl, hstored, rfl⟩ := requireProduct_yields h hp
  obtain ⟨rfl, hqualified⟩ := qualified_yields hfull
  split at hw
  · exact ((yields_fail).1 hw).elim
  · rename_i hsound
    simp only [yields_bind, yields_ask, yields_refuseIf] at hw
    obtain ⟨same, _, hsame, _, _, ⟨hempty, rfl⟩, hcreate⟩ := hw
    cases hsame
    cases hcreate
    refine .poolCreated valid hstored hqualified hsound fun {i q} hq => ?_
    have := h.pools.not_admitted (by simpa using hempty) hq
    simpa [PoolFilter.admits] using this

theorem updatePoolInstances_effect (h : t.Numbered) (product name : String)
    (instances : List Instance) : Effect ignoreReadiness t (.updatePoolInstances product name instances)
      (t.perform (Pools.updateInstances product name instances)).2 := by
  refine perform_guarded_cases (.idle _) fun sound =>
    perform_update_cases (.idle _) fun q t' hw => ?_
  simp only [yields_bind, yields_ask, yields_pure] at hw
  obtain ⟨p, _, hp, pool, _, hpool, _, _, hwrite, _, rfl⟩ := hw
  obtain ⟨rfl, hproduct, rfl⟩ := requireProduct_yields h hp
  obtain ⟨rfl, hqualified, hstored, howned⟩ := requireOwned_yields h hpool
  obtain ⟨found, hfound, rfl⟩ := change_ok hwrite
  rw [hstored] at hfound
  cases hfound
  exact .instancesUpdated sound hproduct hqualified hstored howned

theorem deletePool_effect (h : t.Numbered) (product name : String) :
    Effect ignoreReadiness t (.deletePool product name) (t.perform (Pools.delete product name)).2 := by
  refine perform_update_cases (.idle _) fun _ t' hw => ?_
  simp only [yields_bind, yields_ask, yields_refuseIf, yields_pure, Pools.references] at hw
  obtain ⟨p, _, hp, pool, _, hpool, _, _, ⟨bs, _, hbs, ss, _, hss, rfl, rfl⟩, _, _,
    ⟨hunused, rfl⟩, hwrite⟩ := hw
  obtain ⟨rfl, hproduct, rfl⟩ := requireProduct_yields h hp
  obtain ⟨rfl, hqualified, hstored, howned⟩ := requireOwned_yields h hpool
  cases hbs; cases hss
  obtain ⟨_, _, rfl⟩ := change_ok hwrite
  simp only [Bool.not_eq_false', List.isEmpty_iff, List.append_eq_nil_iff, List.map_eq_nil_iff]
    at hunused
  refine .poolDeleted hproduct hqualified hstored howned ?_ ?_
  · intro i b hget
    have := h.bfeClusters.not_admitted hunused.1 hget
    simpa [BfeClusterFilter.admits] using this
  · intro i s hget
    have := h.subClusters.not_admitted hunused.2 hget
    simpa [SubClusterFilter.admits] using this

/-! Sub-clusters. -/

theorem requireBindablePool_yields {t' : Tables} (h : t.Numbered) {p : Product} {name : String}
    {pool : Pool} (hw : Yields answer t (SubClusters.requireBindablePool p name) pool t') :
    t' = t ∧ t.IsBindablePool p.id pool.id := by
  simp only [SubClusters.requireBindablePool, yields_bind, yields_refuseIf, yields_pure] at hw
  obtain ⟨found, _, hfound, _, _, ⟨hbindable, rfl⟩, rfl, rfl⟩ := hw
  obtain ⟨rfl, hstored, -⟩ := requirePool_yields h hfound
  refine ⟨rfl, found, hstored, ?_⟩
  by_cases howned : found.productId = p.id
  · exact Or.inl howned
  · exact Or.inr (by simpa [howned] using hbindable)

theorem newPool_yields {t' : Tables} (h : t.Numbered) {p : Product} {s : SubCluster.Record}
    {name : Option String} {pool : Option PoolId}
    (hw : Yields answer t (SubClusters.newPool p s name) pool t') :
    t' = t ∧ ∀ {q}, pool = some q → s.clusterId = none ∧ t.IsBindablePool p.id q := by
  cases name with
  | none =>
    rw [SubClusters.newPool, yields_done] at hw
    obtain ⟨rfl, rfl⟩ := hw
    exact ⟨rfl, fun hq => by cases hq⟩
  | some name =>
    simp only [SubClusters.newPool, yields_bind] at hw
    obtain ⟨found, _, hfound, hw⟩ := hw
    obtain ⟨rfl, hbindable⟩ := requireBindablePool_yields h hfound
    split at hw
    · obtain ⟨rfl, rfl⟩ := yields_pure.1 hw
      exact ⟨rfl, fun hq => by cases hq⟩
    · split at hw
      · exact (yields_fail.1 hw).elim
      · obtain ⟨rfl, rfl⟩ := yields_pure.1 hw
        exact ⟨rfl, fun hq => by cases hq; exact ⟨‹_›, hbindable⟩⟩

theorem createSubCluster_effect (h : t.Numbered) (name : String) (proposal : SubCluster.Proposal) :
    Effect ignoreReadiness t (.createSubCluster name proposal)
      (t.perform (SubClusters.create name proposal)).2 := by
  refine perform_guarded_cases (.idle _) fun valid =>
    perform_update_cases (.idle _) fun s t' hw => ?_
  simp only [yields_bind, yields_ask, yields_refuseIf, yields_pure] at hw
  obtain ⟨p, _, hp, same, _, hsame, _, _, ⟨hempty, rfl⟩, pool, _, hpool, record, _, hcreate, _,
    rfl⟩ := hw
  obtain ⟨rfl, hstored, rfl⟩ := requireProduct_yields h hp
  cases hsame
  obtain ⟨rfl, hbindable⟩ := requireBindablePool_yields h hpool
  cases hcreate
  refine .subClusterCreated valid hstored (fun {i s} hs howned => ?_) hbindable
  have := h.subClusters.not_admitted (by simpa using hempty) hs
  simpa [SubClusterFilter.admits, howned] using this

theorem resolveOne_fetches (s : SubCluster.Record) :
    (SubClusters.resolveOne s).Only (·.fetches = true) :=
  only_bind (only_ask rfl) fun _ => only_ofExcept _

theorem updateSubCluster_effect (h : t.Numbered) (product name : String)
    (change : SubCluster.Change) : Effect ignoreReadiness t (.updateSubCluster product name change)
      (t.perform (SubClusters.update product name change)).2 := by
  refine perform_guarded_cases (.idle _) fun valid =>
    perform_update_cases (.idle _) fun s t' hw => ?_
  simp only [yields_bind, yields_ask] at hw
  obtain ⟨p, _, hp, record, _, hrecord, pool, _, hpool, _, _, hwrite, updated, _, hupdated,
    hresolve⟩ := hw
  obtain ⟨rfl, hproduct, rfl⟩ := requireProduct_yields h hp
  obtain ⟨rfl, hstored, howned, rfl⟩ := requireSubCluster_yields h hrecord
  obtain ⟨rfl, hmoved⟩ := newPool_yields h hpool
  obtain ⟨found, hfound, rfl⟩ := change_ok hwrite
  rw [hstored] at hfound
  cases hfound
  obtain rfl := fetches_yields (requireSubCluster_fetches _ _) hupdated
  obtain rfl := fetches_yields (resolveOne_fetches _) hresolve
  exact .subClusterUpdated valid hproduct hstored howned hmoved

theorem deleteSubCluster_effect (h : t.Numbered) (product name : String) :
    Effect ignoreReadiness t (.deleteSubCluster product name)
      (t.perform (SubClusters.delete product name)).2 := by
  refine perform_update_cases (.idle _) fun _ t' hw => ?_
  simp only [yields_bind] at hw
  obtain ⟨p, _, hp, record, _, hrecord, hw⟩ := hw
  obtain ⟨rfl, hproduct, rfl⟩ := requireProduct_yields h hp
  obtain ⟨rfl, hstored, howned, rfl⟩ := requireSubCluster_yields h hrecord
  split at hw
  · exact (yields_fail.1 hw).elim
  · rw [yields_ask] at hw
    obtain ⟨_, _, rfl⟩ := change_ok hw
    exact .subClusterDeleted hproduct hstored howned ‹_›

/-! Domains. -/

theorem createDomain_effect (h : t.Numbered) (name : String) (proposal : Domain.Proposal) :
    Effect ignoreReadiness t (.createDomain name proposal)
      (t.perform (Domains.create name proposal)).2 := by
  refine perform_guarded_cases (.idle _) fun valid =>
    perform_update_cases (.idle _) fun d t' hw => ?_
  simp only [yields_bind, yields_ask] at hw
  obtain ⟨p, _, hp, existing, _, hexisting, hw⟩ := hw
  obtain ⟨rfl, hstored, rfl⟩ := requireProduct_yields h hp
  cases hexisting
  split at hw
  · exact (yields_fail.1 hw).elim
  · rename_i hclear
    rw [yields_ask] at hw
    cases hw
    refine .domainCreated valid hstored fun {i d} hd => ?_
    rw [List.find?_eq_none] at hclear
    have := hclear d (h.domains.mem_select.2 ⟨by rw [h.domains.own hd]; exact hd, rfl⟩)
    simpa using this

theorem hostInRules_yields {t' : Tables} {host : String} {b : Bool}
    (hw : Yields answer t (hostInRules host) b t') :
    t' = t ∧ b = t.routeRules.values.any (·.referencesHost host) := by
  simp only [hostInRules, yields_bind, yields_ask, yields_pure] at hw
  obtain ⟨rules, _, hrules, rfl, rfl⟩ := hw
  cases hrules
  refine ⟨rfl, ?_⟩
  have hall : t.routeRules.filter (fun id _ => (none : Option ProductId).all (id = ·)) =
      t.routeRules := SortedMap.ext fun i => by
    rw [SortedMap.get?_filter]
    cases t.routeRules.get? i <;> rfl
  rw [hall]

theorem deleteDomain_effect (h : t.Numbered) (product name : String) :
    Effect ignoreReadiness t (.deleteDomain product name)
      (t.perform (Domains.delete product name)).2 := by
  refine perform_update_cases (.idle _) fun _ t' hw => ?_
  simp only [yields_bind, yields_ask, yields_require, yields_refuseIf] at hw
  obtain ⟨p, _, hp, found, _, hfound, d, _, ⟨hhead, rfl⟩, _, _, ⟨hplain, rfl⟩, routed, _, hrouted, _,
    _, ⟨hfree, rfl⟩, hwrite⟩ := hw
  obtain ⟨rfl, hproduct, rfl⟩ := requireProduct_yields h hp
  cases hfound
  obtain ⟨hstored, hadm⟩ := h.domains.head?_select hhead
  obtain ⟨rfl, rfl⟩ := hostInRules_yields hrouted
  obtain ⟨_, _, rfl⟩ := change_ok hwrite
  simp only [DomainFilter.admits, Option.all_some, Bool.and_eq_true, decide_eq_true_eq] at hadm
  refine .domainDeleted hproduct hstored hadm.1 hadm.2 hplain fun {i rules} hrules => ?_
  rw [List.any_eq_false] at hfree
  simpa using hfree rules (SortedMap.mem_values.2 ⟨i, hrules⟩)

/-! Certificates. -/

theorem length_certificates (t : Tables) :
    (select t.certificates (CertificateFilter.admits {}) Certificate.name).length =
      t.certificates.size :=
  Indexed.length_select _ _ _ fun _ => rfl

theorem createCertificate_effect (h : t.Numbered) (draft : Certificate.Draft) :
    Effect ignoreReadiness t (.createCertificate draft)
      (t.perform (Certificates.create draft)).2 := by
  refine perform_guarded_cases (.idle _) fun valid =>
    perform_update_cases (.idle _) fun c t' hw => ?_
  simp only [yields_bind, yields_ask, yields_refuseIf] at hw
  obtain ⟨same, _, hsame, _, _, ⟨hempty, rfl⟩, all, _, hall, added, _, hcreate, hw⟩ := hw
  cases hsame
  cases hall
  cases hcreate
  have hfresh {i : CertificateId} {c : Certificate} (hc : t.certificates.get? i = some c) :
      c.name ≠ draft.name := by
    have := h.certificates.not_admitted (by simpa using hempty) hc
    simpa [CertificateFilter.admits] using this
  have hsize : (select t.certificates (CertificateFilter.admits {}) Certificate.name).isEmpty =
      t.certificates.isEmpty := by
    rw [Bool.eq_iff_iff, List.isEmpty_iff_length_eq_zero, length_certificates,
      SortedMap.isEmpty, List.isEmpty_iff_length_eq_zero]
    rfl
  rw [hsize] at hw
  split at hw
  · rename_i hmark
    simp only [yields_bind, yields_ask, yields_pure] at hw
    obtain ⟨_, _, hwrite, _, rfl⟩ := hw
    obtain ⟨_, _, rfl⟩ := change_ok hwrite
    exact .certificateCreated valid hfresh (by rw [if_pos hmark]; rfl)
  · rename_i hmark
    obtain ⟨_, rfl⟩ := yields_pure.1 hw
    exact .certificateCreated valid hfresh (by rw [if_neg hmark]; rfl)

theorem setDefaultCertificate_effect (h : t.Numbered) (name : String) :
    Effect ignoreReadiness t (.setDefaultCertificate name)
      (t.perform (Certificates.setDefault name)).2 := by
  refine perform_update_cases (.idle _) fun _ t' hw => ?_
  simp only [yields_bind, yields_ask, yields_pure] at hw
  obtain ⟨c, _, hc, _, _, hwrite, _, rfl⟩ := hw
  obtain ⟨rfl, hstored, rfl⟩ := requireCertificate_yields h hc
  obtain ⟨_, _, rfl⟩ := change_ok hwrite
  exact .defaultCertificateSet hstored

theorem deleteCertificate_effect (h : t.Numbered) (name : String) :
    Effect ignoreReadiness t (.deleteCertificate name)
      (t.perform (Certificates.delete name)).2 := by
  refine perform_update_cases (.idle _) fun _ t' hw => ?_
  simp only [yields_bind, yields_ask, yields_refuseIf] at hw
  obtain ⟨c, _, hc, all, _, hall, _, _, ⟨hspare, rfl⟩, hwrite⟩ := hw
  obtain ⟨rfl, hstored, rfl⟩ := requireCertificate_yields h hc
  cases hall
  obtain ⟨_, _, rfl⟩ := change_ok hwrite
  refine .certificateDeleted hstored fun hdefault => ?_
  rw [length_certificates] at hspare
  simpa [hdefault] using hspare

end FleetControl.Control
