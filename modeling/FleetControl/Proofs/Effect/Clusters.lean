import FleetControl.Proofs.Effect.Basic

/-!
The effects of the managers of clusters and of BFE clusters. Both write load matrices: the first the
one of the cluster named, the second those of all clusters in turn.
-/

namespace FleetControl.Control

open Store Store.Work Store.Tables

variable {t t' : Tables}

theorem checkMatrix_yields {m : LoadMatrix} {bfes subClusters : List String} {u : Unit}
    (hw : Yields answer t (Clusters.checkMatrix m bfes subClusters) u t') :
    t' = t ∧ m.Fits bfes subClusters := by
  simp only [Clusters.checkMatrix, yields_ofExcept, mapError_eq_ok] at hw
  exact ⟨hw.2.symm, LoadMatrix.check_eq_ok.1 hw.1⟩

theorem bindingRefusal?_eq_none {ignore : Bool} {r : SubCluster.Record} {s : SubCluster}
    (hr : Resolves t r s) (h : Clusters.bindingRefusal? ignore s = none) :
    r.clusterId = none ∧ t.IsReady ignore r := by
  obtain ⟨pool, hpool, rfl⟩ := hr
  rw [Clusters.bindingRefusal?] at h
  split at h
  · cases h
  · rename_i hfree
    refine ⟨hfree, ?_⟩
    cases ignore with
    | true => exact Or.inl rfl
    | false =>
      split at h
      · cases h
      · rename_i hready
        exact Or.inr ⟨pool, hpool, by simpa [SubCluster.ready, SubCluster.ofRecord] using hready⟩

theorem requireBindable_yields (h : t.Numbered) {ignore : Bool} {p : Product} {names : List String}
    {subClusters : List SubCluster}
    (hw : Yields answer t (Clusters.requireBindable ignore p names) subClusters t') :
    t' = t ∧ Bindable ignore t p.id names (subClusters.map (·.id)) := by
  cases names with
  | nil =>
    obtain ⟨rfl, rfl⟩ := yields_done.1 hw
    exact ⟨rfl, ⟨by simp, by simp⟩⟩
  | cons n names =>
    simp only [Clusters.requireBindable, yields_bind, yields_ask] at hw
    obtain ⟨records, _, hrecords, hw⟩ := hw
    cases hrecords
    split at hw
    · exact (yields_fail.1 hw).elim
    · rename_i hknown
      simp only [yields_bind] at hw
      obtain ⟨found, _, hfound, hw⟩ := hw
      obtain ⟨rfl, hall⟩ := resolveSubClusters_yields h hfound
      split at hw
      · exact (yields_fail.1 hw).elim
      · rename_i hfree
        obtain ⟨rfl, rfl⟩ := yields_pure.1 hw
        refine ⟨rfl, ⟨fun m hm => ?_, fun i hi => ?_⟩⟩
        -- Every name was found, and everything found has one of the names and is free.
        · rw [List.find?_eq_none] at hknown
          have hany := hknown m hm
          simp only [Bool.not_eq_true', Bool.not_eq_false, List.any_eq_true,
            decide_eq_true_eq] at hany
          obtain ⟨r, hr, hname⟩ := hany
          refine ⟨r.id, ?_, r, (h.subClusters.mem_select.1 hr).1, hname⟩
          rw [map_id_of_forall₂ hall]
          exact List.mem_map_of_mem hr
        · obtain ⟨s, hs, rfl⟩ := List.mem_map.1 hi
          obtain ⟨r, hr, hres⟩ := exists_left_of_forall₂ hall hs
          obtain ⟨hstored, hadm⟩ := h.subClusters.mem_select.1 hr
          simp only [SubClusterFilter.admits, Option.all_none, Option.all_some, Bool.and_true,
            Bool.true_and, Bool.and_eq_true, decide_eq_true_eq, List.contains_iff_mem] at hadm
          obtain ⟨hunmounted, hready⟩ :=
            bindingRefusal?_eq_none hres (List.findSome?_eq_none_iff.1 hfree s hs)
          exact ⟨r, hres.id_eq ▸ hstored, hadm.1, hadm.2, hunmounted, hready⟩

theorem duplicate?_eq_none {seen names : List String} (h : Clusters.duplicate? seen names = none) :
    names.Nodup ∧ ∀ n ∈ names, n ∉ seen := by
  induction names generalizing seen with
  | nil => simp
  | cons n names ih =>
    rw [Clusters.duplicate?] at h
    split at h
    · cases h
    · rename_i hnew
      obtain ⟨hnodup, hrest⟩ := ih h
      have hseen : n ∉ seen := by simpa using hnew
      refine ⟨List.nodup_cons.2 ⟨fun hmem => hrest n hmem List.mem_cons_self, hnodup⟩, ?_⟩
      intro m hm
      rcases List.mem_cons.1 hm with rfl | hm
      · exact hseen
      · exact fun hmem => hrest m hm (List.mem_cons_of_mem _ hmem)

theorem duplicate?_of_nodup {seen names : List String} (hnodup : names.Nodup)
    (hseen : ∀ n ∈ names, n ∉ seen) : Clusters.duplicate? seen names = none := by
  induction names generalizing seen with
  | nil => rfl
  | cons n names ih =>
    rw [List.nodup_cons] at hnodup
    have hnew : ¬ seen.contains n = true := by simpa using hseen n List.mem_cons_self
    rw [Clusters.duplicate?, if_neg hnew]
    apply ih hnodup.2
    intro m hm hmem
    rcases List.mem_cons.1 hmem with rfl | hmem
    · exact hnodup.1 hm
    · exact hseen m (List.mem_cons_of_mem n hm) hmem

theorem namesRefusal?_eq_none {names : List String} (h : Clusters.namesRefusal? names = none) :
    names ≠ [] ∧ names.Nodup := by
  rw [Clusters.namesRefusal?] at h
  split at h
  · cases h
  · rename_i hne
    exact ⟨by simpa using hne, (duplicate?_eq_none (Option.map_eq_none_iff.1 h)).1⟩

theorem namesRefusal?_of_nodup {names : List String} (hne : names ≠ []) (hnodup : names.Nodup) :
    Clusters.namesRefusal? names = none := by
  rw [Clusters.namesRefusal?, if_neg (by simpa using hne), duplicate?_of_nodup hnodup (by simp)]
  rfl

theorem reservedRefusal?_eq_none {name : String} (h : Clusters.reservedRefusal? name = none) :
    Cluster.isReservedName name = false := by
  rw [Clusters.reservedRefusal?] at h
  split at h
  · cases h
  · rename_i hfree
    simpa using hfree

theorem createCluster_effect (h : t.Numbered) (ignore : Bool) (name : String)
    (proposal : Cluster.Proposal) : Effect ignore t (.createCluster name proposal)
      (t.perform (Clusters.create ignore name proposal)).2 := by
  refine perform_guarded_cases (.idle _) fun valid => perform_guarded_cases (.idle _) fun reserved =>
    perform_guarded_cases (.idle _) fun sticky => perform_guarded_cases (.idle _) fun names =>
    perform_update_cases (.idle _) fun c t' hw => ?_
  simp only [yields_bind, yields_ask, yields_refuseIf] at hw
  obtain ⟨p, _, hp, same, _, hsame, _, _, ⟨hempty, rfl⟩, subClusters, _, hsub, bfes, _, hbfes, _, _,
    hcheck, record, _, hcreate, _, _, hbind, _, _, hput, hassemble⟩ := hw
  obtain ⟨rfl, hstored, rfl⟩ := requireProduct_yields h hp
  cases hsame
  obtain ⟨rfl, hbindable⟩ := requireBindable_yields h hsub
  obtain ⟨rfl, rfl⟩ := bfeClusterNames_yields hbfes
  obtain ⟨rfl, hfits⟩ := checkMatrix_yields hcheck
  cases hcreate
  obtain ⟨rfl, -⟩ := bind_ok hbind
  cases hput
  obtain rfl := fetches_yields (assembleCluster_fetches _ _) hassemble
  obtain ⟨hsome, hdistinct⟩ := namesRefusal?_eq_none names
  refine .clusterCreated valid (reservedRefusal?_eq_none reserved) sticky hsome hdistinct hstored
    (fun {i c} hc => ?_) hbindable rfl hfits
  have := h.clusters.not_admitted (by simpa using hempty) hc
  simpa [ClusterFilter.admits] using this

theorem updateCluster_effect (h : t.Numbered) (ignore : Bool) (product name : String)
    (change : Cluster.Change) : Effect ignore t (.updateCluster product name change)
      (t.perform (Clusters.update ignore product name change)).2 := by
  refine perform_guarded_cases (.idle _) fun valid => perform_guarded_cases (.idle _) fun sticky =>
    perform_update_cases (.idle _) fun c t' hw => ?_
  simp only [yields_bind] at hw
  obtain ⟨p, _, hp, c, _, hc, hw⟩ := hw
  obtain ⟨rfl, hproduct, rfl⟩ := requireProduct_yields h hp
  obtain ⟨rfl, hstored, rfl, howned⟩ := requireLockedCluster_yields h hc
  split at hw
  · rename_i matrix hscheduler
    simp only [yields_bind, yields_ask, Clusters.replaceMatrix] at hw
    obtain ⟨_, _, ⟨bound, _, hbound, bfes, _, hbfes, _, _, hcheck, hput⟩, _, _, hwrite,
      hassemble⟩ := hw
    obtain ⟨rfl, rfl⟩ := boundSubClusters_yields hbound
    obtain ⟨rfl, rfl⟩ := bfeClusterNames_yields hbfes
    obtain ⟨rfl, hfits⟩ := checkMatrix_yields hcheck
    cases hput
    obtain ⟨_, _, rfl⟩ := change_ok hwrite
    obtain rfl := fetches_yields (assembleCluster_fetches _ _) hassemble
    refine .clusterUpdated valid sticky hproduct hstored howned (fun hnone => ?_) fun {m} hsome => ?_
    · rw [hscheduler] at hnone
      cases hnone
    · rw [hscheduler] at hsome
      cases hsome
      exact ⟨hfits, rfl⟩
  · rename_i hscheduler
    simp only [yields_bind, yields_ask, yields_done] at hw
    obtain ⟨_, _, ⟨_, rfl⟩, _, _, hwrite, hassemble⟩ := hw
    obtain ⟨_, _, rfl⟩ := change_ok hwrite
    obtain rfl := fetches_yields (assembleCluster_fetches _ _) hassemble
    refine .clusterUpdated valid sticky hproduct hstored howned (fun _ => rfl) fun {m} hsome => ?_
    rw [hscheduler] at hsome
    cases hsome

theorem mem_difference {n : String} {a b : List String} :
    n ∈ Clusters.difference a b ↔ n ∈ a ∧ n ∉ b := by
  rw [Clusters.difference, List.mem_filter, LoadMatrix.mem_nameSet]
  simp

def released (t : Tables) (k : ClusterId) (target : List String) : List SubClusterId :=
  ((t.bound k).filter fun s =>
    (Clusters.difference (t.boundNames k) target).contains s.name).map (·.id)

theorem mem_released (h : t.Numbered) {k : ClusterId} {target : List String} {i : SubClusterId} :
    i ∈ released t k target ↔
      ∃ s, t.subClusters.get? i = some s ∧ s.clusterId = some k ∧ s.name ∉ target := by
  rw [released, List.mem_map]
  constructor
  · rintro ⟨s, hs, rfl⟩
    obtain ⟨hbound, hremoved⟩ := List.mem_filter.1 hs
    obtain ⟨hget, hmounted⟩ := h.mem_bound.1 hbound
    exact ⟨s, hget, hmounted, (mem_difference.1 (by simpa using hremoved)).2⟩
  · rintro ⟨s, hget, hmounted, hname⟩
    have hown : s.id = i := h.subClusters.own hget
    have hbound : s ∈ t.bound k := h.mem_bound.2 ⟨by rw [hown]; exact hget, hmounted⟩
    refine ⟨s, List.mem_filter.2 ⟨hbound, ?_⟩, hown⟩
    rw [List.contains_iff_mem, mem_difference]
    exact ⟨List.mem_map_of_mem hbound, hname⟩

theorem rebind_effect (h : t.Numbered) (ignore : Bool) (product name : String)
    (target : List String) : Effect ignore t (.rebindSubClusters product name target)
      (t.perform (Clusters.rebind ignore product name target)).2 := by
  refine perform_guarded_cases (.idle _) fun names =>
    perform_update_cases (.idle _) fun c t' hw => ?_
  simp only [yields_bind, yields_ask, yields_require, yields_ofExcept, mapError_eq_ok] at hw
  obtain ⟨p, _, hp, c, _, hc, current, _, hcurrent, subClusters, _, hsub, stored, _, hfetch, matrix,
    _, ⟨hmatrix, rfl⟩, rebound, _, ⟨hrebind, rfl⟩, bfes, _, hbfes, _, _, hcheck, _, _, hunbind, _, _,
    hbind, _, _, hput, hassemble⟩ := hw
  obtain ⟨rfl, hproduct, rfl⟩ := requireProduct_yields h hp
  obtain ⟨rfl, hstored, rfl, howned⟩ := requireLockedCluster_yields h hc
  obtain ⟨rfl, rfl⟩ := boundSubClusters_yields hcurrent
  obtain ⟨rfl, hbindable⟩ := requireBindable_yields h hsub
  cases hfetch
  obtain ⟨entry, hentry, rfl⟩ := Option.map_eq_some_iff.1 hmatrix
  obtain ⟨rfl, rfl⟩ := bfeClusterNames_yields hbfes
  obtain ⟨rfl, hfits⟩ := checkMatrix_yields hcheck
  obtain rfl := unbind_ok hunbind
  obtain ⟨rfl, -⟩ := bind_ok hbind
  cases hput
  obtain rfl := fetches_yields (assembleCluster_fetches _ _) hassemble
  obtain ⟨hsome, hdistinct⟩ := namesRefusal?_eq_none names
  exact .rebound hsome hdistinct hproduct hstored howned (mem_released h) hbindable hentry hrebind
    hfits

theorem clusterInRules_yields {p : Product} {c : ClusterId} {b : Bool}
    (hw : Yields answer t (clusterInRules p c) b t') :
    t' = t ∧ b = (t.routeRules.get? p.id).any (·.referencesCluster c) := by
  simp only [clusterInRules, yields_bind, yields_ask, yields_pure] at hw
  obtain ⟨rules, _, hrules, rfl, rfl⟩ := hw
  cases hrules
  refine ⟨rfl, ?_⟩
  rw [SortedMap.get?_filter]
  cases t.routeRules.get? p.id <;> simp

theorem deleteCluster_effect (h : t.Numbered) (ignore : Bool) (product name : String) :
    Effect ignore t (.deleteCluster product name)
      (t.perform (Clusters.delete ignore [routeRuleChecker] product name)).2 := by
  refine perform_update_cases (.idle _) fun _ t' hw => ?_
  simp only [yields_bind, yields_ask] at hw
  obtain ⟨p, _, hp, record, _, hrecord, cluster, _, hcluster, _, _, hconsult, _, _, hunbind, _, _,
    herase, hwrite⟩ := hw
  obtain ⟨rfl, hproduct, rfl⟩ := requireProduct_yields h hp
  obtain ⟨rfl, hstored, rfl, howned⟩ := requireLockedCluster_yields h hrecord
  obtain ⟨rfl, rfl, hall⟩ := assembleCluster_yields h hcluster
  simp only [Clusters.consult, routeRuleChecker, yields_bind, yields_pure] at hconsult
  obtain ⟨_, _, ⟨referenced, _, hreferenced, rfl, rfl⟩, hconsult⟩ := hconsult
  obtain ⟨rfl, rfl⟩ := clusterInRules_yields hreferenced
  split at hconsult
  · exact (yields_fail.1 hconsult).elim
  · rename_i hveto
    obtain ⟨_, rfl⟩ := yields_done.1 hconsult
    obtain rfl := unbind_ok hunbind
    cases herase
    obtain ⟨_, _, rfl⟩ := change_ok hwrite
    refine .clusterDeleted hproduct hstored howned (fun {rules} hrules => ?_) fun {i} => ?_
    · rw [hrules] at hveto
      have hfree : rules.referencesCluster cluster.id = false := by simpa using hveto
      exact hfree
    · rw [map_id_of_forall₂ hall, List.mem_map]
      constructor
      · rintro ⟨s, hs, rfl⟩
        obtain ⟨hget, hmounted⟩ := h.mem_bound.1 hs
        exact ⟨s, hget, hmounted⟩
      · rintro ⟨s, hget, hmounted⟩
        have hown : s.id = i := h.subClusters.own hget
        exact ⟨s, h.mem_bound.2 ⟨by rw [hown]; exact hget, hmounted⟩, hown⟩

/-! BFE clusters. -/

/-- Rewriting the matrices of clusters in turn, each from what was stored for it before, leaves every
other entry alone. -/
theorem forAll_matrices {f : Cluster.Record → Work Unit}
    {new : Cluster.Record → Option (ProductId × LoadMatrix)}
    (step : ∀ {c ms u t'}, ms.get? c.id = t.loadMatrices.get? c.id →
      Yields answer { t with loadMatrices := ms } (f c) u t' → ∃ ms',
        t' = { t with loadMatrices := ms' } ∧ ms'.get? c.id = new c ∧
        ∀ i, i ≠ c.id → ms'.get? i = ms.get? i)
    {cs : List Cluster.Record} (hnodup : (cs.map (·.id)).Nodup)
    {ms : SortedMap ClusterId (ProductId × LoadMatrix)}
    (hold : ∀ c ∈ cs, ms.get? c.id = t.loadMatrices.get? c.id) {us : List Unit}
    (hw : Yields answer { t with loadMatrices := ms } (forAll f cs) us t') :
    ∃ ms', t' = { t with loadMatrices := ms' } ∧ (∀ c ∈ cs, ms'.get? c.id = new c) ∧
      ∀ i, i ∉ cs.map (·.id) → ms'.get? i = ms.get? i := by
  -- The matrices move on from step to step; no cluster comes twice, so each is read as it was.
  induction cs generalizing ms us with
  | nil =>
    obtain ⟨_, rfl⟩ := yields_forAll_nil.1 hw
    exact ⟨ms, rfl, by simp, fun _ _ => rfl⟩
  | cons c cs ih =>
    rw [List.map_cons, List.nodup_cons] at hnodup
    obtain ⟨u, t₁, hfirst, vs, hrest, -⟩ := yields_forAll_cons.1 hw
    obtain ⟨ms₁, rfl, hnew, hkept⟩ := step (hold c List.mem_cons_self) hfirst
    have hne : ∀ d ∈ cs, d.id ≠ c.id := fun d hd e => hnodup.1 (e ▸ List.mem_map_of_mem hd)
    obtain ⟨ms', rfl, hall, hothers⟩ := ih hnodup.2
      (fun d hd => (hkept d.id (hne d hd)).trans (hold d (List.mem_cons_of_mem c hd))) hrest
    refine ⟨ms', rfl, fun d hd => ?_, fun i hi => ?_⟩
    · rcases List.mem_cons.1 hd with rfl | hd
      · rw [hothers _ hnodup.1, hnew]
      · exact hall d hd
    · rw [List.map_cons, List.mem_cons, not_or] at hi
      rw [hothers i hi.2, hkept i hi.1]

theorem extendMatrix_yields {bfe : String} {c : Cluster.Record} {u : Unit}
    {ms : SortedMap ClusterId (ProductId × LoadMatrix)}
    (hold : ms.get? c.id = t.loadMatrices.get? c.id)
    (hw : Yields answer { t with loadMatrices := ms } (BfeClusters.extendMatrix bfe c) u t') :
    ∃ ms', t' = { t with loadMatrices := ms' } ∧
      ms'.get? c.id = some (c.productId, t.extendedMatrix bfe c.id) ∧
      ∀ i, i ≠ c.id → ms'.get? i = ms.get? i := by
  simp only [BfeClusters.extendMatrix, yields_bind, yields_ask] at hw
  obtain ⟨bound, _, hbound, stored, _, hstored, hput⟩ := hw
  obtain ⟨rfl, rfl⟩ := boundSubClusters_yields hbound
  cases hstored
  cases hput
  refine ⟨_, rfl, ?_, fun i hi => SortedMap.get?_insert_ne _ _ hi⟩
  rw [SortedMap.get?_insert_self, extendedMatrix, hold]
  rfl

theorem shrinkMatrix_yields {bfe : String} {c : Cluster.Record} {u : Unit}
    {ms : SortedMap ClusterId (ProductId × LoadMatrix)}
    (hold : ms.get? c.id = t.loadMatrices.get? c.id)
    (hw : Yields answer { t with loadMatrices := ms } (BfeClusters.shrinkMatrix bfe c) u t') :
    ∃ ms', t' = { t with loadMatrices := ms' } ∧ ms'.get? c.id = t.shrunkMatrix bfe c ∧
      ∀ i, i ≠ c.id → ms'.get? i = ms.get? i := by
  simp only [BfeClusters.shrinkMatrix, yields_bind, yields_ask] at hw
  obtain ⟨stored, _, hstored, hw⟩ := hw
  cases hstored
  rw [shrunkMatrix, ← hold]
  cases hget : ms.get? c.id with
  | none =>
    simp only [hget, Option.map_none] at hw
    obtain ⟨_, rfl⟩ := yields_done.1 hw
    exact ⟨ms, rfl, hget, fun _ _ => rfl⟩
  | some e =>
    simp only [hget, Option.map_some] at hw
    split at hw
    · rename_i hrow
      rw [yields_ask] at hw
      cases hw
      refine ⟨_, rfl, ?_, fun i hi => SortedMap.get?_insert_ne _ _ hi⟩
      rw [SortedMap.get?_insert_self, Option.map_some, if_pos hrow]
    · rename_i hrow
      obtain ⟨_, rfl⟩ := yields_done.1 hw
      refine ⟨ms, rfl, ?_, fun _ _ => rfl⟩
      rw [hget, Option.map_some, if_neg hrow]

theorem forAll_clusters_matrices {f : Cluster.Record → Work Unit}
    {new : Cluster.Record → Option (ProductId × LoadMatrix)} {us : List Unit}
    (hw : Yields answer t
      (forAll f (select t.clusters (ClusterFilter.admits {}) Cluster.Record.name)) us t')
    (step : ∀ {c ms u t'}, ms.get? c.id = t.loadMatrices.get? c.id →
      Yields answer { t with loadMatrices := ms } (f c) u t' → ∃ ms',
        t' = { t with loadMatrices := ms' } ∧ ms'.get? c.id = new c ∧
        ∀ i, i ≠ c.id → ms'.get? i = ms.get? i)
    {bound : Int} (h : Indexed bound Cluster.Record.id t.clusters) :
    ∃ ms', t' = { t with loadMatrices := ms' } ∧
      (∀ {i c}, t.clusters.get? i = some c → ms'.get? i = new c) ∧
      ∀ {i}, t.clusters.get? i = none → ms'.get? i = t.loadMatrices.get? i := by
  obtain ⟨ms, rfl, hnew, hkept⟩ := forAll_matrices step h.nodup_ids (fun _ _ => rfl) hw
  refine ⟨ms, rfl, fun {i c} hc => ?_, fun {i} hi => hkept i fun hmem => ?_⟩
  · have hown := h.own hc
    have := hnew c (h.mem_select.2 ⟨by rw [hown]; exact hc, rfl⟩)
    rwa [hown] at this
  · obtain ⟨c, hc, rfl⟩ := List.mem_map.1 hmem
    rw [(h.mem_select.1 hc).1] at hi
    cases hi

theorem createBfeCluster_effect (h : t.Numbered) (ignore : Bool) (proposal : BfeCluster.Proposal) :
    Effect ignore t (.createBfeCluster proposal) (t.perform (BfeClusters.create proposal)).2 := by
  refine perform_guarded_cases (.idle _) fun valid =>
    perform_update_cases (.idle _) fun b t' hw => ?_
  simp only [yields_bind, yields_ask, yields_refuseIf, yields_pure] at hw
  obtain ⟨same, _, hsame, _, _, ⟨hempty, rfl⟩, pool, _, hpool, _, _, ⟨hinfra, rfl⟩, b, _, hcreate, cs,
    _, hcs, _, _, hall, _, rfl⟩ := hw
  cases hsame
  obtain ⟨rfl, hstored, hnamed⟩ := requirePool_yields h hpool
  cases hcreate
  cases hcs
  obtain ⟨ms, rfl, hnew, hkept⟩ := forAll_clusters_matrices hall extendMatrix_yields h.clusters
  refine .bfeClusterCreated valid (fun {i b} hb => ?_) hstored hnamed (by simpa using hinfra)
    (fun {i c} hc => ?_) hkept
  · have := h.bfeClusters.not_admitted (by simpa using hempty) hb
    simpa [BfeClusterFilter.admits] using this
  · rw [hnew hc, h.clusters.own hc]
    rfl

theorem deleteBfeCluster_effect (h : t.Numbered) (ignore : Bool) (name : String) :
    Effect ignore t (.deleteBfeCluster name) (t.perform (BfeClusters.delete name)).2 := by
  refine perform_update_cases (.idle _) fun _ t' hw => ?_
  simp only [yields_bind, yields_ask, yields_require] at hw
  obtain ⟨found, _, hfound, b, _, ⟨hhead, rfl⟩, cs, _, hcs, _, _, hall, hwrite⟩ := hw
  cases hfound
  cases hcs
  obtain ⟨hstored, hadm⟩ := h.bfeClusters.head?_select hhead
  obtain rfl : b.name = name := by simpa [BfeClusterFilter.admits] using hadm
  obtain ⟨ms, rfl, hnew, hkept⟩ := forAll_clusters_matrices hall shrinkMatrix_yields h.clusters
  obtain ⟨_, _, rfl⟩ := change_ok hwrite
  exact .bfeClusterDeleted hstored hnew hkept

end FleetControl.Control
