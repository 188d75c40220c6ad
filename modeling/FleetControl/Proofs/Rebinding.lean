import FleetControl.Proofs.Consistent
import FleetControl.Proofs.Coverage
import FleetControl.Proofs.Draining
import FleetControl.Proofs.Supplies

/-!
Replacing the sub-clusters of a cluster, from the request to the tables. The names that leave and those
that join are told apart by set differences, resolved to records, and written in three steps with a
check of the matrix before them; together this does what the request says or nothing. The check is no
obstacle: a stored matrix fits what is bound, and columns at zero do not change what fits.
-/

namespace FleetControl.Control

open Store Store.Work Store.Tables

variable {t t' : Tables} {ignore : Bool} {p : Product} {r : Cluster.Record}

theorem requireCluster_finds (hn : t.Numbered) (hnamed : Named t)
    (hr : t.clusters.get? r.id = some r) (howned : r.productId = p.id) :
    Yields answer t (requireCluster p r.name) r t := by
  have hhead : (select t.clusters (ClusterFilter.admits
      { name := some r.name, productId := some p.id }) Cluster.Record.name).head? = some r := by
    apply hn.clusters.head?_select_of_unique hr
    · simp [ClusterFilter.admits, howned]
    · intro c hc hadm
      simp only [ClusterFilter.admits, Option.all_some, Option.all_none, Bool.true_and,
        Bool.and_eq_true, decide_eq_true_eq] at hadm
      exact Indexed.eq_of_id_eq hr hc (hnamed.clusters c.id r.id c r hc hr hadm.1)
  simp only [requireCluster, yields_bind, yields_ask, yields_require]
  exact ⟨_, t, rfl, hhead, rfl⟩

theorem requireLockedCluster_finds (hn : t.Numbered) (hnamed : Named t)
    (hr : t.clusters.get? r.id = some r) (howned : r.productId = p.id) :
    Yields answer t (requireLockedCluster p r.name) r t := by
  have hhead : (select t.clusters (ClusterFilter.admits { id := some r.id })
      Cluster.Record.name).head? = some r := by
    apply hn.clusters.head?_select_of_unique hr
    · simp [ClusterFilter.admits]
    · intro c hc hadm
      exact Indexed.eq_of_id_eq hr hc (by simpa [ClusterFilter.admits] using hadm)
  simp only [requireLockedCluster, yields_bind, yields_ask, yields_require]
  exact ⟨r, t, requireCluster_finds hn hnamed hr howned, (), t, rfl, _, t, rfl, hhead, rfl⟩

theorem bindingRefusal?_of_free {s : SubCluster.Record} {resolved : SubCluster}
    (hs : Resolves t s resolved) (hfree : s.clusterId = none) (hready : t.IsReady ignore s) :
    Clusters.bindingRefusal? ignore resolved = none := by
  obtain ⟨pool, hpool, rfl⟩ := hs
  simp only [Clusters.bindingRefusal?, SubCluster.ofRecord, hfree]
  rcases hready with rfl | ⟨q, hq, hready⟩
  · simp
  · rw [hpool] at hq
    cases hq
    simp [SubCluster.ready, hready]

theorem requireBindable_finds (hn : t.Numbered) (hnamed : Named t) (hsupplied : Supplied t)
    {names : List String} (hfree : ∀ n ∈ names, ∃ i s, t.subClusters.get? i = some s ∧
      s.productId = p.id ∧ s.name = n ∧ s.clusterId = none ∧ t.IsReady ignore s) :
    ∃ subClusters, Yields answer t (Clusters.requireBindable ignore p names) subClusters t := by
  cases names with
  | nil => exact ⟨[], yields_done.2 ⟨rfl, rfl⟩⟩
  | cons n names =>
    have hread : ∀ s ∈ select t.subClusters
        (SubClusterFilter.admits { productId := some p.id, names := some (n :: names) })
        SubCluster.Record.name, s ∈ t.subClusters.values := fun s hs => mem_values_of_mem_select hs
    obtain ⟨subClusters, hresolve⟩ := hsupplied.resolve hread
    obtain ⟨-, hall⟩ := resolveSubClusters_yields hn hresolve
    have hadmits : ∀ s : SubCluster.Record, SubClusterFilter.admits
        { productId := some p.id, names := some (n :: names) } s = true ↔
          s.productId = p.id ∧ s.name ∈ n :: names := by
      intro s
      simp only [SubClusterFilter.admits, Option.all_none, Option.all_some, Bool.and_true,
        Bool.true_and, Bool.and_eq_true, decide_eq_true_eq, List.contains_iff_mem]
    refine ⟨subClusters, ?_⟩
    simp only [Clusters.requireBindable, yields_bind, yields_ask]
    refine ⟨_, t, rfl, ?_⟩
    split
    · rename_i missing hmissing
      have hasked := List.mem_of_find?_eq_some hmissing
      obtain ⟨i, s, hs, howner, rfl, -⟩ := hfree missing hasked
      have habsent := List.find?_some hmissing
      simp only [Bool.not_eq_true', List.any_eq_false, decide_eq_true_eq] at habsent
      have hfound : s ∈ select t.subClusters _ SubCluster.Record.name :=
        hn.subClusters.mem_select_of_get? hs ((hadmits s).2 ⟨howner, hasked⟩)
      exact absurd rfl (habsent s hfound)
    · simp only [yields_bind]
      refine ⟨subClusters, t, hresolve, ?_⟩
      split
      · rename_i f hrefused
        obtain ⟨s, hs, hrefused⟩ := List.exists_of_findSome?_eq_some hrefused
        obtain ⟨record, hrecord, hres⟩ := exists_left_of_forall₂ hall hs
        obtain ⟨hstored, hadm⟩ := hn.subClusters.mem_select.1 hrecord
        obtain ⟨howner, hasked⟩ := (hadmits record).1 hadm
        obtain ⟨i, s', hs', howner', hname, hunmounted, hready⟩ := hfree record.name hasked
        -- The record read is the one known to be free: names are unique within a product.
        have hid := hnamed.subClusters i record.id s' record hs' hstored
          (Prod.ext (howner'.trans howner.symm) hname)
        rw [hid, hstored] at hs'
        cases hs'
        rw [bindingRefusal?_of_free hres hunmounted hready] at hrefused
        cases hrefused
      · exact yields_pure.2 ⟨rfl, rfl⟩

theorem requireBindable_nodup (hn : t.Numbered) {names : List String}
    {subClusters : List SubCluster}
    (hw : Yields answer t (Clusters.requireBindable ignore p names) subClusters t') :
    (subClusters.map (·.id)).Nodup := by
  cases names with
  | nil =>
    obtain ⟨rfl, -⟩ := yields_done.1 hw
    exact List.nodup_nil
  | cons n names =>
    simp only [Clusters.requireBindable, yields_bind, yields_ask] at hw
    obtain ⟨records, _, hrecords, hw⟩ := hw
    cases hrecords
    split at hw
    · exact (yields_fail.1 hw).elim
    · simp only [yields_bind] at hw
      obtain ⟨found, _, hfound, hw⟩ := hw
      obtain ⟨rfl, hall⟩ := resolveSubClusters_yields hn hfound
      split at hw
      · exact (yields_fail.1 hw).elim
      · obtain ⟨rfl, rfl⟩ := yields_pure.1 hw
        rw [map_id_of_forall₂ hall]
        exact hn.subClusters.nodup_ids

/-! The faults of the reads name no field. -/

theorem requireProduct_fails {name : String} {f : Fault}
    (hw : Fails answer t (requireProduct name) f) : f.field = none := by
  simp only [requireProduct, fails_bind, fails_ask, fails_require] at hw
  obtain hanswer | ⟨_, _, _, _, rfl⟩ := hw
  · cases hanswer
  · rfl

theorem requireLockedCluster_fails {name : String} {f : Fault}
    (hw : Fails answer t (requireLockedCluster p name) f) : f.field = none := by
  simp only [requireLockedCluster, requireCluster, fails_bind, fails_ask, fails_require] at hw
  obtain (hanswer | ⟨_, _, _, _, rfl⟩) | ⟨_, _, _, hanswer | ⟨_, _, _, hanswer | ⟨_, _, _, _, rfl⟩⟩⟩ :=
    hw
  · cases hanswer
  · rfl
  · cases hanswer
  · cases hanswer
  · rfl

theorem requireBindable_fails (hsupplied : Supplied t) {names : List String} {f : Fault}
    (hw : Fails answer t (Clusters.requireBindable ignore p names) f) : f.field = none := by
  cases names with
  | nil => exact (fails_done.1 hw).elim
  | cons n names =>
    simp only [Clusters.requireBindable, fails_bind, fails_ask] at hw
    obtain hanswer | ⟨records, _, hrecords, hw⟩ := hw
    · cases hanswer
    · cases yields_ask.1 hrecords
      split at hw
      · rw [← fails_fail.1 hw]
        rfl
      · rw [fails_bind] at hw
        obtain ⟨subClusters, hresolve⟩ := hsupplied.resolve fun r hr => mem_values_of_mem_select hr
        obtain hw | ⟨_, _, _, hw⟩ := hw
        · exact absurd hw hresolve.not_fails
        · split at hw
          · rename_i g hrefused
            obtain rfl := fails_fail.1 hw
            obtain ⟨s, -, hrefused⟩ := List.exists_of_findSome?_eq_some hrefused
            rw [Clusters.bindingRefusal?] at hrefused
            split at hrefused
            · cases hrefused
              rfl
            · split at hrefused
              · cases hrefused
                rfl
              · cases hrefused
          · exact (fails_pure.1 hw).elim

/-! The writes, once everything is checked. -/

namespace Clusters

def replaceBound (ignore : Bool) (p : Product) (r : Cluster.Record)
    (removed added : List SubClusterId) (m : LoadMatrix) : Work Cluster := do
  ask (.unbindSubClusters removed)
  ask (.bindSubClusters r.id added)
  ask (.putLoadMatrix r.id p.id m)
  assembleCluster ignore r

theorem rebindLocked_eq (ignore : Bool) (target : List String) (p : Product)
    (r : Cluster.Record) : rebindLocked ignore target p r = (do
      let current ← boundSubClusters r.id
      let removed := difference (current.map (·.name)) target
      let added := difference target (current.map (·.name))
      let subClusters ← requireBindable ignore p added
      let stored ← ask (.fetchLoadMatrix r.id)
      let matrix ← require (noMatrix r) stored
      let rebound ← ofExcept ((matrix.rebind removed added).mapError LoadMatrix.Undrained.fault)
      let bfes ← bfeClusterNames
      checkMatrix rebound bfes target
      replaceBound ignore p r ((current.filter fun s => removed.contains s.name).map (·.id))
        (subClusters.map (·.id)) rebound) := rfl

theorem replaceBound_finds (hsupplied : Supplied t) {removed added : List SubClusterId}
    (hremoved : ∀ i ∈ removed, ∃ s, t.subClusters.get? i = some s ∧ s.clusterId = some r.id)
    (hnodup : added.Nodup)
    (hadded : ∀ i ∈ added, ∃ s, t.subClusters.get? i = some s ∧ s.clusterId = none)
    (m : LoadMatrix) : ∃ cluster, Yields answer t (replaceBound ignore p r removed added m) cluster
      { t with
        subClusters := ((t.mount none removed).mount (some r.id) added).subClusters
        loadMatrices := t.loadMatrices.insert r.id (p.id, m) } := by
  have hunbind := unbind_each fun i hi => (hremoved i hi).imp fun _ hs => hs.1
  have hfree : ∀ i ∈ added, ∃ s, (t.mount none removed).subClusters.get? i = some s ∧
      s.clusterId = none := by
    intro i hi
    obtain ⟨s, hs, hnone⟩ := hadded i hi
    have hkept : i ∉ removed := by
      intro hgone
      obtain ⟨s', hs', hmounted⟩ := hremoved i hgone
      rw [hs] at hs'
      cases hs'
      rw [hnone] at hmounted
      cases hmounted
    exact ⟨s, by rw [get?_mount_of_not_mem hkept, hs], hnone⟩
  have hbind := bind_each (k := r.id) hnodup hfree
  have hwritten : Supplied { t with
      subClusters := ((t.mount none removed).mount (some r.id) added).subClusters
      loadMatrices := t.loadMatrices.insert r.id (p.id, m) } :=
    (hsupplied.mount none removed).mount (some r.id) added
  obtain ⟨cluster, hassemble⟩ := hwritten.assemble ignore r
  refine ⟨cluster, ?_⟩
  simp only [replaceBound, yields_bind, yields_ask]
  exact ⟨(), _, hunbind, (), _, hbind, (), _, rfl, hassemble⟩

end Clusters
end FleetControl.Control

namespace FleetControl.Store.Tables

open Control Work

variable {t t' : Tables} {ignoreReadiness : Bool} {p : Product} {r : Cluster.Record}
  {target : List String}

def remounted (p : ProductId) (k : ClusterId) (target : List String) (s : SubCluster.Record) :
    SubCluster.Record :=
  if s.productId = p ∧ s.name ∈ target then { s with clusterId := some k }
  else if s.clusterId = some k then { s with clusterId := none }
  else s

theorem remounted_of_named {p : ProductId} {k : ClusterId} {s : SubCluster.Record}
    (hp : s.productId = p) (hname : s.name ∈ target) :
    remounted p k target s = { s with clusterId := some k } := if_pos ⟨hp, hname⟩

structure Rebindable (ignoreReadiness : Bool) (t : Tables) (p : Product) (r : Cluster.Record)
    (target : List String) : Prop where
  nonempty : target ≠ []
  distinct : target.Nodup
  product : t.products.get? p.id = some p
  cluster : t.clusters.get? r.id = some r
  owned : r.productId = p.id
  free : ∀ n ∈ target, n ∉ t.boundNames r.id → ∃ i s, t.subClusters.get? i = some s ∧
    s.productId = p.id ∧ s.name = n ∧ s.clusterId = none ∧ t.IsReady ignoreReadiness s
  drained : ∀ n ∈ t.boundNames r.id, n ∉ target → ∀ q m, t.loadMatrices.get? r.id = some (q, m) →
    ∀ b row, m.rows.get? b = some row → row.get? n = some 0

structure Rebinds (t : Tables) (p : Product) (r : Cluster.Record) (target : List String)
    (t' : Tables) : Prop where
  mounted : (t'.boundNames r.id).Perm target
  subClusters : t'.subClusters = t.subClusters.map fun _ => remounted p.id r.id target
  matrix : ∃ m m', t.loadMatrices.get? r.id = some (p.id, m) ∧
    LoadMatrix.Rebound (t.boundNames r.id) target m m' ∧
    t'.loadMatrices = t.loadMatrices.insert r.id (p.id, m')
  elsewhere : t' = { t with subClusters := t'.subClusters, loadMatrices := t'.loadMatrices }

theorem Mounted.productId_eq (h : Mounted t) (hr : t.clusters.get? r.id = some r)
    (howned : r.productId = p.id) {i : SubClusterId} {s : SubCluster.Record}
    (hs : t.subClusters.get? i = some s) (hk : s.clusterId = some r.id) : s.productId = p.id := by
  obtain ⟨r', hr', howner⟩ := h.home hs hk
  rw [hr] at hr'
  cases hr'
  exact howner.symm.trans howned

theorem mem_boundNames_remounted (hn' : t'.Numbered) {q : ProductId} {k : ClusterId}
    (hsubs : t'.subClusters = t.subClusters.map fun _ => remounted q k target)
    (hstored : ∀ n ∈ target, ∃ i s, t.subClusters.get? i = some s ∧ s.productId = q ∧ s.name = n)
    (n : String) : n ∈ t'.boundNames k ↔ n ∈ target := by
  rw [hn'.mem_boundNames, hsubs]
  constructor
  · rintro ⟨i, s', hget, hk, rfl⟩
    rw [SortedMap.get?_map, Option.map_eq_some_iff] at hget
    obtain ⟨s, -, rfl⟩ := hget
    rw [remounted] at hk ⊢
    split at hk
    · rename_i hnamed
      rw [if_pos hnamed]
      exact hnamed.2
    · split at hk
      · cases hk
      · rename_i hnot
        exact absurd hk hnot
  · intro hn
    obtain ⟨i, s, hs, howner, rfl⟩ := hstored n hn
    refine ⟨i, { s with clusterId := some k }, ?_, rfl, rfl⟩
    rw [SortedMap.get?_map, hs, Option.map_some, remounted_of_named howner hn]

theorem mount_eq_remounted (hn : t.Numbered) (hnamed : Named t) (hmounted : Mounted t)
    (hr : t.clusters.get? r.id = some r) (howned : r.productId = p.id)
    {removed added : List SubClusterId}
    (hreleased : ∀ {i}, i ∈ removed ↔ ∃ s, t.subClusters.get? i = some s ∧
      s.clusterId = some r.id ∧ s.name ∉ target)
    (hb : Bindable ignoreReadiness t p.id (Clusters.difference target (t.boundNames r.id)) added) :
    ((t.mount none removed).mount (some r.id) added).subClusters =
      t.subClusters.map fun _ => remounted p.id r.id target := by
  refine SortedMap.ext fun i => ?_
  rw [get?_mount, get?_mount, SortedMap.get?_map]
  cases hs : t.subClusters.get? i with
  | none => rfl
  | some s =>
    simp only [Option.map_some, Option.some.injEq]
    by_cases hadded : i ∈ added
    · obtain ⟨s', hs', howner, hname, -⟩ := hb.free i hadded
      rw [hs] at hs'
      cases hs'
      rw [if_pos hadded, remounted_of_named howner (mem_difference.1 hname).1]
      split <;> rfl
    · rw [if_neg hadded]
      by_cases hremoved : i ∈ removed
      · obtain ⟨s', hs', hk, hname⟩ := hreleased.1 hremoved
        rw [hs] at hs'
        cases hs'
        rw [if_pos hremoved, remounted, if_neg (fun h => hname h.2), if_pos hk]
      · rw [if_neg hremoved, remounted]
        split
        · rename_i hnamed'
          -- A sub-cluster of that name is mounted already, or it was among those added.
          have hk : s.clusterId = some r.id := by
            by_cases hbound : s.name ∈ t.boundNames r.id
            · obtain ⟨j, u, hu, hk, hname⟩ := hn.mem_boundNames.1 hbound
              have hid := hnamed.subClusters j i u s hu hs
                (Prod.ext ((hmounted.productId_eq hr howned hu hk).trans hnamed'.1.symm) hname)
              rw [hid, hs] at hu
              cases hu
              exact hk
            · obtain ⟨j, hj, u, hu, hname⟩ := hb.named s.name (mem_difference.2 ⟨hnamed'.2, hbound⟩)
              obtain ⟨u', hu', howner, -⟩ := hb.free j hj
              rw [hu] at hu'
              cases hu'
              have hid := hnamed.subClusters j i u s hu hs
                (Prod.ext (howner.trans hnamed'.1.symm) hname)
              exact absurd (hid ▸ hj) hadded
          rw [← hk]
        · rename_i hother
          rw [if_neg]
          intro hk
          have howner := hmounted.productId_eq hr howned hs hk
          exact hremoved (hreleased.2 ⟨s, hs, hk, fun hname => hother ⟨howner, hname⟩⟩)

theorem blackhole_not_mem (h : t.Reachable) {names : List String} {ids : List SubClusterId}
    (hnames : ∀ n ∈ target, n ∉ t.boundNames r.id → n ∈ names)
    (hb : Bindable ignoreReadiness t p.id names ids) : LoadMatrix.blackhole ∉ target := by
  intro hmem
  by_cases hbound : LoadMatrix.blackhole ∈ t.boundNames r.id
  · obtain ⟨i, s, hs, -, hname⟩ := h.numbered.mem_boundNames.1 hbound
    exact h.unreserved i s hs hname
  · obtain ⟨i, -, s, hs, hname⟩ := hb.named _ (hnames _ hmem hbound)
    exact h.unreserved i s hs hname

/-- Once the matrix is rebound, nothing stands in the way: it passes its check and all is written. -/
theorem Reachable.completes (h : t.Reachable) (hword : t.subClusters.size < 2 ^ 31)
    {m m' : LoadMatrix} (hm : t.loadMatrices.get? r.id = some (p.id, m))
    {subClusters : List SubCluster}
    (hsub : Yields answer t (Clusters.requireBindable ignoreReadiness p
      (Clusters.difference target (t.boundNames r.id))) subClusters t)
    (hrebind : m.rebind (Clusters.difference (t.boundNames r.id) target)
      (Clusters.difference target (t.boundNames r.id)) = .ok m') :
    m'.Fits t.fleet target ∧ LoadMatrix.Rebound (t.boundNames r.id) target m m' ∧
      ∃ cluster, Yields answer t (Clusters.replaceBound ignoreReadiness p r
        (released t r.id target) (subClusters.map (·.id)) m') cluster
        { t with
          subClusters := ((t.mount none (released t r.id target)).mount (some r.id)
            (subClusters.map (·.id))).subClusters
          loadMatrices := t.loadMatrices.insert r.id (p.id, m') } := by
  obtain ⟨-, hb⟩ := requireBindable_yields h.numbered hsub
  have hfree : LoadMatrix.blackhole ∉ target :=
    blackhole_not_mem h (fun n hn hbound => mem_difference.2 ⟨hn, hbound⟩) hb
  obtain ⟨hfits, hrebound⟩ := (h.fits hword hm).rebind (fun _ => mem_difference)
    (fun _ => mem_difference) hfree hrebind
  refine ⟨hfits, hrebound, ?_⟩
  apply Clusters.replaceBound_finds h.consistent.supplied
  · intro i hi
    obtain ⟨s, hs, hk, -⟩ := (mem_released h.numbered).1 hi
    exact ⟨s, hs, hk⟩
  · exact requireBindable_nodup h.numbered hsub
  · intro i hi
    obtain ⟨s, hs, -, -, hnone, -⟩ := hb.free i hi
    exact ⟨s, hs, hnone⟩

/-! The whole operation. -/

theorem Reachable.rebindable_of_yields (h : t.Reachable) (hword : t.subClusters.size < 2 ^ 31)
    (hnames : Clusters.namesRefusal? target = none) (hp : t.products.get? p.id = some p)
    (hr : t.clusters.get? r.id = some r) (howned : r.productId = p.id) {cluster : Cluster}
    (hw : Yields answer t (Clusters.rebindLocked ignoreReadiness target p r) cluster t') :
    Rebindable ignoreReadiness t p r target := by
  simp only [Clusters.rebindLocked, yields_bind, yields_ask, yields_require, yields_ofExcept,
    mapError_eq_ok] at hw
  obtain ⟨current, _, hcurrent, subClusters, _, hsub, stored, _, hfetch, m, _, ⟨hm, rfl⟩, m', _,
    ⟨hrebind, rfl⟩, -⟩ := hw
  obtain ⟨rfl, rfl⟩ := boundSubClusters_yields hcurrent
  obtain ⟨rfl, hb⟩ := requireBindable_yields h.numbered hsub
  cases hfetch
  obtain ⟨hnonempty, hdistinct⟩ := namesRefusal?_eq_none hnames
  refine ⟨hnonempty, hdistinct, hp, hr, howned, fun n hn hfresh => ?_, ?_⟩
  · obtain ⟨i, hi, s, hs, rfl⟩ := hb.named n (mem_difference.2 ⟨hn, hfresh⟩)
    obtain ⟨s', hs', howner, -, hfree, hready⟩ := hb.free i hi
    rw [hs] at hs'
    cases hs'
    exact ⟨i, s, hs, howner, rfl, hfree, hready⟩
  · intro n hn hgone q m₀ hm₀ b row hrow
    rw [hm₀] at hm
    cases hm
    have hzero := LoadMatrix.exists_rebind_iff.1 ⟨m', hrebind⟩ b row hrow n
      (mem_difference.2 ⟨hn, hgone⟩)
    exact ((h.fits hword hm₀).getD_eq_zero hrow hn).1 hzero

theorem Reachable.rebind_performs (h : t.Reachable) (hword : t.subClusters.size < 2 ^ 31)
    (hrebindable : Rebindable ignoreReadiness t p r target) :
    ∃ m m' cluster, t.loadMatrices.get? r.id = some (p.id, m) ∧
      LoadMatrix.Rebound (t.boundNames r.id) target m m' ∧
      t.perform (Clusters.rebind ignoreReadiness p.name r.name target) = (.ok cluster,
        { t with
          subClusters := t.subClusters.map fun _ => remounted p.id r.id target
          loadMatrices := t.loadMatrices.insert r.id (p.id, m') }) := by
  have hn := h.numbered
  obtain ⟨hnonempty, hdistinct, hp, hr, howned, hfree, hdrained⟩ := hrebindable
  obtain ⟨m, hm⟩ := (h.intact.balanced r.id p.id).2 ⟨r, hr, howned⟩
  have hfits := h.fits hword hm
  have hadded : ∀ n ∈ Clusters.difference target (t.boundNames r.id), ∃ i s,
      t.subClusters.get? i = some s ∧ s.productId = p.id ∧ s.name = n ∧ s.clusterId = none ∧
        t.IsReady ignoreReadiness s :=
    fun n hn => hfree n (mem_difference.1 hn).1 (mem_difference.1 hn).2
  obtain ⟨subClusters, hsub⟩ := requireBindable_finds hn h.named h.consistent.supplied hadded
  obtain ⟨-, hb⟩ := requireBindable_yields hn hsub
  obtain ⟨m', hrebind⟩ : ∃ m', m.rebind (Clusters.difference (t.boundNames r.id) target)
      (Clusters.difference target (t.boundNames r.id)) = .ok m' := by
    refine LoadMatrix.exists_rebind_iff.2 fun b row hrow n hn => ?_
    obtain ⟨hbound, hgone⟩ := mem_difference.1 hn
    exact (hfits.getD_eq_zero hrow hbound).2 (hdrained n hbound hgone _ m hm b row hrow)
  obtain ⟨hfits', hrebound, cluster, hwrites⟩ := h.completes hword hm hsub hrebind
  rw [mount_eq_remounted hn h.named h.intact.mounted hr howned (mem_released hn) hb] at hwrites
  refine ⟨m, m', cluster, hm, hrebound, ?_⟩
  have hrun : Yields answer t (do
      let owner ← requireProduct p.name
      let record ← requireLockedCluster owner r.name
      Clusters.rebindLocked ignoreReadiness target owner record) cluster
      { t with
        subClusters := t.subClusters.map fun _ => remounted p.id r.id target
        loadMatrices := t.loadMatrices.insert r.id (p.id, m') } := by
    simp only [Clusters.rebindLocked_eq, yields_bind, yields_ask, yields_require, yields_ofExcept,
      mapError_eq_ok]
    refine ⟨p, t, requireProduct_finds hn h.named hp, r, t,
      requireLockedCluster_finds hn h.named hr howned, t.bound r.id, t, rfl, subClusters, t, hsub, _,
      t, rfl, m, t, ⟨by rw [hm]; rfl, rfl⟩, m', t, ⟨hrebind, rfl⟩, t.fleet, t, ?_, (), t, ?_, hwrites⟩
    · simp only [bfeClusterNames, yields_bind, yields_ask, yields_pure]
      exact ⟨_, t, rfl, rfl, rfl⟩
    · simp only [Clusters.checkMatrix, yields_ofExcept, mapError_eq_ok]
      exact ⟨LoadMatrix.check_eq_ok.2 hfits', trivial⟩
  rw [Clusters.rebind_eq, namesRefusal?_of_nodup hnonempty hdistinct, Operation.guarded, perform]
  rw [Yields] at hrun
  rw [hrun]

theorem Reachable.rebindLocked_fails (h : t.Reachable) (hword : t.subClusters.size < 2 ^ 31)
    (hr : t.clusters.get? r.id = some r) (howned : r.productId = p.id) {f : Fault}
    (hw : Fails answer t (Clusters.rebindLocked ignoreReadiness target p r) f) : f.field = none := by
  obtain ⟨m, hm⟩ := (h.intact.balanced r.id p.id).2 ⟨r, hr, howned⟩
  simp only [Clusters.rebindLocked_eq, fails_bind, fails_ask, fails_require, fails_ofExcept,
    yields_ask, yields_require, yields_ofExcept, mapError_eq_ok] at hw
  -- Step by step: a step refuses without a field, or it yields and the next one is due.
  obtain hanswer | ⟨current, _, hcurrent, hw⟩ := hw
  · simp only [boundSubClusters, fails_ask] at hanswer
    cases hanswer
  obtain ⟨rfl, rfl⟩ := boundSubClusters_yields hcurrent
  obtain hrefused | ⟨subClusters, _, hsub, hw⟩ := hw
  · exact requireBindable_fails h.consistent.supplied hrefused
  obtain ⟨rfl, -⟩ := requireBindable_yields h.numbered hsub
  obtain hanswer | ⟨stored, _, hfetch, ⟨-, rfl⟩ | ⟨m₀, _, ⟨hm₀, rfl⟩, hw⟩⟩ := hw
  · cases hanswer
  · rfl
  cases hfetch
  rw [hm] at hm₀
  cases hm₀
  obtain hundrained | ⟨m', _, ⟨hrebind, rfl⟩, hw⟩ := hw
  · obtain ⟨u, -, rfl⟩ := mapError_eq_error.1 hundrained
    rfl
  obtain ⟨hfits, -, cluster, hwrites⟩ := h.completes hword hm hsub hrebind
  obtain hanswer | ⟨bfes, _, hbfes, hw⟩ := hw
  · simp only [bfeClusterNames, fails_bind, fails_ask, fails_pure] at hanswer
    obtain hanswer | ⟨_, _, _, hfalse⟩ := hanswer
    · cases hanswer
    · exact hfalse.elim
  obtain ⟨rfl, rfl⟩ := bfeClusterNames_yields hbfes
  obtain hdefect | ⟨_, _, hcheck, hw⟩ := hw
  · rw [Clusters.checkMatrix, fails_ofExcept, LoadMatrix.check_eq_ok.2 hfits] at hdefect
    cases hdefect
  obtain ⟨rfl, -⟩ := checkMatrix_yields hcheck
  exact absurd hw hwrites.not_fails

theorem Reachable.rebind_fails (h : t.Reachable) (hword : t.subClusters.size < 2 ^ 31)
    {product cluster : String} {f : Fault}
    (hf : (t.perform (Clusters.rebind ignoreReadiness product cluster target)).1 = .error f) :
    Clusters.namesRefusal? target = some f ∨ f.field = none := by
  rw [Clusters.rebind_eq] at hf
  cases hnames : Clusters.namesRefusal? target with
  | some g =>
    rw [hnames] at hf
    cases hf
    exact Or.inl rfl
  | none =>
    right
    have hfails : Fails answer t (do
        let owner ← requireProduct product
        let record ← requireLockedCluster owner cluster
        Clusters.rebindLocked ignoreReadiness target owner record) f := by
      rw [hnames, Operation.guarded, perform] at hf
      rw [Fails]
      split at hf
      · cases hf
      · rename_i g u hrun
        rw [hrun]
        exact hf
    simp only [fails_bind] at hfails
    obtain hfails | ⟨p, _, hp, hfails | ⟨r, _, hr, hfails⟩⟩ := hfails
    · exact requireProduct_fails hfails
    · exact requireLockedCluster_fails hfails
    · obtain ⟨rfl, -, -⟩ := requireProduct_yields h.numbered hp
      obtain ⟨rfl, hstored, -, howned⟩ := requireLockedCluster_yields h.numbered hr
      exact h.rebindLocked_fails hword hstored howned hfails

theorem message_reservedBound : LoadMatrix.Defect.reservedBound.message =
    "'" ++ LoadMatrix.blackhole ++ "' is reserved and cannot be bound as a sub cluster" := rfl

/-- No defect of a matrix is reported in the words for a name that is listed twice. -/
theorem namesRefusal?_ne_fault (d : LoadMatrix.Defect) :
    Clusters.namesRefusal? target ≠ some d.fault := by
  intro h
  rw [Clusters.namesRefusal?] at h
  split at h
  · cases h
  · obtain ⟨n, -, hn⟩ := Option.map_eq_some_iff.1 h
    simp only [LoadMatrix.Defect.fault, Fault.onField, Fault.illegalParameter.injEq,
      Option.some.injEq] at hn
    cases d with
    | reservedBound =>
      -- One message opens with a word, the other with a quotation mark.
      have hchars := congrArg String.toList hn.1
      rw [message_reservedBound] at hchars
      simp at hchars
    | _ => simp at hn

theorem Reachable.rebindable_of_ok (h : t.Reachable) (hword : t.subClusters.size < 2 ^ 31)
    {product name : String} {cluster : Cluster}
    (hok : (t.perform (Clusters.rebind ignoreReadiness product name target)).1 = .ok cluster) :
    ∃ p r, p.name = product ∧ r.name = name ∧ Rebindable ignoreReadiness t p r target := by
  rw [Clusters.rebind_eq] at hok
  cases hnames : Clusters.namesRefusal? target with
  | some f =>
    rw [hnames] at hok
    cases hok
  | none =>
    rw [hnames, Operation.guarded, perform] at hok
    split at hok
    · rename_i a t' hrun
      have hyields : Yields answer t (do
          let owner ← requireProduct product
          let record ← requireLockedCluster owner name
          Clusters.rebindLocked ignoreReadiness target owner record) a t' := hrun
      simp only [yields_bind] at hyields
      obtain ⟨p, _, hp, r, _, hr, hw⟩ := hyields
      obtain ⟨rfl, hproduct, rfl⟩ := requireProduct_yields h.numbered hp
      obtain ⟨rfl, hstored, rfl, howned⟩ := requireLockedCluster_yields h.numbered hr
      exact ⟨p, r, rfl, rfl, h.rebindable_of_yields hword hnames hproduct hstored howned hw⟩
    · cases hok

theorem Reachable.rebinds (h : t.Reachable) (hword : t.subClusters.size < 2 ^ 31)
    (hrebindable : Rebindable ignoreReadiness t p r target) :
    (∃ cluster, (t.perform (Clusters.rebind ignoreReadiness p.name r.name target)).1 =
        .ok cluster) ∧
      Rebinds t p r target
        (t.perform (Clusters.rebind ignoreReadiness p.name r.name target)).2 := by
  have heffect := rebind_effect h.numbered ignoreReadiness p.name r.name target
  obtain ⟨m, m', cluster, hm, hrebound, hperform⟩ := h.rebind_performs hword hrebindable
  rw [hperform] at heffect ⊢
  refine ⟨⟨cluster, rfl⟩, ?_, rfl, ⟨m, m', hm, hrebound, rfl⟩, rfl⟩
  have hn' := h.numbered.effect heffect
  have hnodup := nodup_boundNames hn' (h.named.effect heffect)
    (h.intact.effect h.numbered heffect).mounted r.id
  refine (List.perm_ext_iff_of_nodup hnodup hrebindable.distinct).2 ?_
  refine mem_boundNames_remounted hn' rfl fun n hn => ?_
  by_cases hbound : n ∈ t.boundNames r.id
  · obtain ⟨i, s, hs, hk, hname⟩ := h.numbered.mem_boundNames.1 hbound
    exact ⟨i, s, hs, h.intact.mounted.productId_eq hrebindable.cluster hrebindable.owned hs hk, hname⟩
  · obtain ⟨i, s, hs, howner, hname, -⟩ := hrebindable.free n hn hbound
    exact ⟨i, s, hs, howner, hname⟩

/-- After any events that leave fewer sub-clusters than a 32-bit word counts, the sub-clusters of a
cluster are replaced exactly when the new ones are listed once each and are free, and those that leave
have no traffic. Then nothing else changes, and the new matrix is never found to be bad. -/
theorem run_rebinds (events : List Event) (hword : (start.run events).subClusters.size < 2 ^ 31)
    (ignoreReadiness : Bool) (product cluster : String) (target : List String) :
    let t := start.run events
    let outcome := t.perform (Clusters.rebind ignoreReadiness product cluster target)
    ((∃ c, outcome.1 = .ok c) ↔ ∃ p r, p.name = product ∧ r.name = cluster ∧
      Rebindable ignoreReadiness t p r target) ∧
    (∀ p r, p.name = product → r.name = cluster → Rebindable ignoreReadiness t p r target →
      Rebinds t p r target outcome.2) ∧
    ∀ d : LoadMatrix.Defect, outcome.1 ≠ .error d.fault := by
  intro t outcome
  have h : t.Reachable := ⟨events, rfl⟩
  refine ⟨⟨fun ⟨c, hc⟩ => h.rebindable_of_ok hword hc, ?_⟩, ?_, fun d hd => ?_⟩
  · rintro ⟨p, r, rfl, rfl, hrebindable⟩
    exact (h.rebinds hword hrebindable).1
  · rintro p r rfl rfl hrebindable
    exact (h.rebinds hword hrebindable).2
  · rcases h.rebind_fails hword hd with hnames | hfield
    · exact namesRefusal?_ne_fault d hnames
    · cases hfield

def drainedFleet : List Event :=
  firstFleet ++
    [.call {} ⟨0⟩ (.createSubCluster "shop" ⟨"west", "web", ""⟩),
      .call {} ⟨0⟩ (.updateCluster "shop" "front" ⟨none, none, none, none,
        some ⟨.ofList [("bfe-a", .ofList [("GSLB_BLACKHOLE", 100), ("east", 0)])]⟩⟩)]

theorem drainedFleet_rebinds :
    (start.run drainedFleet).subClusters.size < 2 ^ 31 ∧
      (∃ c, ((start.run drainedFleet).perform (Clusters.rebind false "shop" "front" ["west"])).1 =
        .ok c) ∧
      ∃ p r, p.name = "shop" ∧ r.name = "front" ∧
        Rebindable false (start.run drainedFleet) p r ["west"] ∧
        Rebinds (start.run drainedFleet) p r ["west"]
          ((start.run drainedFleet).perform (Clusters.rebind false "shop" "front" ["west"])).2 := by
  have hword : (start.run drainedFleet).subClusters.size < 2 ^ 31 := by decide +kernel
  obtain ⟨hiff, hrebinds, -⟩ := run_rebinds drainedFleet hword false "shop" "front" ["west"]
  have hok : ((start.run drainedFleet).perform
      (Clusters.rebind false "shop" "front" ["west"])).1.isOk = true := by decide +kernel
  obtain ⟨c, hc⟩ : ∃ c, ((start.run drainedFleet).perform
      (Clusters.rebind false "shop" "front" ["west"])).1 = .ok c := by
    revert hok
    generalize ((start.run drainedFleet).perform
      (Clusters.rebind false "shop" "front" ["west"])).1 = answer
    cases answer with
    | ok c => exact fun _ => ⟨c, rfl⟩
    | error f => exact fun h => by cases h
  obtain ⟨p, r, hp, hr, hrebindable⟩ := hiff.1 ⟨c, hc⟩
  exact ⟨hword, ⟨c, hc⟩, p, r, hp, hr, hrebindable, hrebinds p r hp hr hrebindable⟩

end FleetControl.Store.Tables
