import FleetControl.Proofs.Additions
import FleetControl.Proofs.Rebinding

/-!
Creating a cluster, from the request to the tables. The request and the tables say beforehand if it
succeeds: the writes at its end find what the checks before them asked for, and a matrix made up for
the cluster passes the check that knows nothing of how it was made.
-/

namespace FleetControl.Cluster.Proposal

structure Proper (proposal : Proposal) : Prop where
  valid : proposal.findings.refusal? = none
  unreserved : isReservedName proposal.name = false
  sticky : proposal.stickySessions.refusal? = none

def draft (proposal : Proposal) (product : ProductId) : Draft :=
  ⟨proposal.name, product, proposal.description, proposal.basic, proposal.stickySessions,
    proposal.passiveHealthCheck⟩

def matrix (proposal : Proposal) (bfes : List String) : LoadMatrix :=
  proposal.scheduler.getD (LoadMatrix.defaultFor bfes proposal.subClusters)

end FleetControl.Cluster.Proposal

namespace FleetControl.Store.Tables

def Serves (t : Tables) (ignoreReadiness : Bool) (k : ClusterId) : Prop :=
  ∀ i s, t.subClusters.get? i = some s → s.clusterId = some k → t.IsReady ignoreReadiness s

end FleetControl.Store.Tables

namespace FleetControl.Control

open Store Store.Work Store.Tables

variable {t t' : Tables} {ignore : Bool} {p : Product} {r : Cluster.Record} {cluster : Cluster}

/-! What the single steps find. -/

theorem isEmpty_namesakes_iff (hn : t.Numbered) {name : String} :
    (select t.clusters (ClusterFilter.admits { name := some name })
      Cluster.Record.name).isEmpty = true ↔
      ∀ i c, t.clusters.get? i = some c → c.name ≠ name := by
  rw [List.isEmpty_iff]
  constructor
  · intro hempty i c hc
    have hadmits := hn.clusters.not_admitted hempty hc
    simpa [ClusterFilter.admits] using hadmits
  · intro hfresh
    apply List.eq_nil_iff_forall_not_mem.2
    intro c hc
    obtain ⟨hstored, hadmits⟩ := hn.clusters.mem_select.1 hc
    have hname : c.name = name := by simpa [ClusterFilter.admits] using hadmits
    exact hfresh c.id c hstored hname

theorem bfeClusterNames_finds (t : Tables) : Yields answer t bfeClusterNames t.fleet t := by
  simp only [bfeClusterNames, yields_bind, yields_ask, yields_pure]
  exact ⟨_, t, rfl, rfl, rfl⟩

theorem checkMatrix_finds {m : LoadMatrix} {bfes names : List String} (h : m.Fits bfes names) :
    Yields answer t (Clusters.checkMatrix m bfes names) () t := by
  simp only [Clusters.checkMatrix, yields_ofExcept, mapError_eq_ok]
  exact ⟨LoadMatrix.check_eq_ok.2 h, trivial⟩

theorem assembleCluster_shows (hw : Yields answer t (assembleCluster ignore r) cluster t') :
    cluster.scheduler = (t.loadMatrices.get? r.id).map Prod.snd ∧
      cluster.ready = (ignore || cluster.subClusters.all SubCluster.ready) := by
  simp only [assembleCluster, yields_bind, yields_ask, yields_pure] at hw
  obtain ⟨records, _, hrecords, subClusters, _, hsub, scheduler, _, hfetch, rfl, -⟩ := hw
  obtain rfl := (boundSubClusters_yields hrecords).1
  obtain rfl := fetches_yields (resolveSubClusters_fetches records) hsub
  cases hfetch
  exact ⟨rfl, rfl⟩

theorem assembleCluster_ready_iff (hn : t.Numbered)
    (hw : Yields answer t (assembleCluster ignore r) cluster t') :
    cluster.ready = true ↔ t.Serves ignore r.id := by
  obtain ⟨-, -, hall⟩ := assembleCluster_yields hn hw
  rw [(assembleCluster_shows hw).2, Bool.or_eq_true, List.all_eq_true]
  constructor
  · rintro (hoff | hready) i s hs hk
    · exact Or.inl hoff
    · have hbound : s ∈ t.bound r.id :=
        hn.mem_bound.2 ⟨by rw [hn.subClusters.own hs]; exact hs, hk⟩
      obtain ⟨shown, hmem, pool, hpool, rfl⟩ := exists_left_of_forall₂ hall.flip hbound
      exact Or.inr ⟨pool, hpool, hready _ hmem⟩
  · intro hserves
    cases ignore with
    | true => exact Or.inl rfl
    | false =>
      right
      intro shown hmem
      obtain ⟨s, hbound, pool, hpool, rfl⟩ := exists_left_of_forall₂ hall hmem
      obtain ⟨hs, hk⟩ := hn.mem_bound.1 hbound
      rcases hserves s.id s hs hk with hoff | ⟨q, hq, hready⟩
      · cases hoff
      · rw [hpool] at hq
        cases hq
        exact hready

theorem fetchCluster_performs (hn : t.Numbered) (hnamed : Named t)
    (hp : t.products.get? p.id = some p) (hr : t.clusters.get? r.id = some r)
    (howned : r.productId = p.id) (hw : Yields answer t (assembleCluster ignore r) cluster t) :
    t.perform (Clusters.fetch ignore p.name r.name) = (.ok cluster, t) := by
  have hproduct := requireProduct_finds hn hnamed hp
  have hcluster := requireCluster_finds hn hnamed hr howned
  apply perform_query_of_yields
  simp only [yields_bind]
  exact ⟨p, t, hproduct, r, t, hcluster, hw⟩

namespace Clusters

variable {proposal : Cluster.Proposal}

def mountNew (ignore : Bool) (draft : Cluster.Draft) (ids : List SubClusterId) (m : LoadMatrix) :
    Work Cluster := do
  let record ← ask (.createCluster draft)
  ask (.bindSubClusters record.id ids)
  ask (.putLoadMatrix record.id draft.productId m)
  assembleCluster ignore record

def createOwned (ignore : Bool) (proposal : Cluster.Proposal) (p : Product) : Work Cluster := do
  let same ← ask (.fetchClusters { name := some proposal.name })
  refuseIf (.alreadyExists "Cluster" proposal.name) !same.isEmpty
  let subClusters ← requireBindable ignore p proposal.subClusters
  let bfes ← bfeClusterNames
  checkMatrix (proposal.matrix bfes) bfes proposal.subClusters
  mountNew ignore (proposal.draft p.id) (subClusters.map (·.id)) (proposal.matrix bfes)

theorem create_of_proper (h : proposal.Proper) (ignore : Bool) (product : String) :
    create ignore product proposal =
      .guarded (namesRefusal? proposal.subClusters) (.update do
        let p ← requireProduct product
        createOwned ignore proposal p) := by
  have hreserved : reservedRefusal? proposal.name = none := by
    rw [reservedRefusal?, h.unreserved]
    rfl
  rw [create, h.valid, hreserved, h.sticky]
  rfl

theorem mountNew_finds (ignore : Bool) (hsupplied : Supplied t) {draft : Cluster.Draft}
    {ids : List SubClusterId} (hnodup : ids.Nodup)
    (hfree : ∀ i ∈ ids, ∃ s, t.subClusters.get? i = some s ∧ s.clusterId = none) (m : LoadMatrix)
    (hwritten : t' = { t with
      nextId := t.nextId + 1
      clusters := t.clusters.insert ⟨t.nextId⟩ (draft.withId ⟨t.nextId⟩)
      subClusters := (t.mount (some ⟨t.nextId⟩) ids).subClusters
      loadMatrices := t.loadMatrices.insert ⟨t.nextId⟩ (draft.productId, m) }) :
    ∃ cluster, Yields answer t' (assembleCluster ignore (draft.withId ⟨t.nextId⟩)) cluster t' ∧
      Yields answer t (mountNew ignore draft ids m) cluster t' := by
  have hsupplied' : Supplied t' := by
    rw [hwritten]
    exact hsupplied.mount (some ⟨t.nextId⟩) ids
  obtain ⟨cluster, hassemble⟩ := hsupplied'.assemble ignore (draft.withId ⟨t.nextId⟩)
  -- The record is there by the time its sub-clusters are mounted, and is none of them.
  have hbind := bind_each (k := ⟨t.nextId⟩) (t := { t with
    nextId := t.nextId + 1
    clusters := t.clusters.insert ⟨t.nextId⟩ (draft.withId ⟨t.nextId⟩) }) hnodup hfree
  refine ⟨cluster, hassemble, ?_⟩
  simp only [mountNew, yields_bind, yields_ask]
  rw [hwritten] at hassemble ⊢
  exact ⟨_, _, rfl, (), _, hbind, (), _, rfl, hassemble⟩

end Clusters
end FleetControl.Control

namespace FleetControl.Store.Tables

open Control Work

variable {t t' : Tables} {ignoreReadiness : Bool} {p : Product} {proposal : Cluster.Proposal}

/-- The cluster can be created: its name is new, its sub-clusters are free sub-clusters of the
product, each of them named once, and a matrix that is supplied passes its check. -/
structure Creatable (ignoreReadiness : Bool) (t : Tables) (p : Product)
    (proposal : Cluster.Proposal) : Prop where
  product : t.products.get? p.id = some p
  fresh : ∀ i c, t.clusters.get? i = some c → c.name ≠ proposal.name
  nonempty : proposal.subClusters ≠ []
  distinct : proposal.subClusters.Nodup
  free : ∀ n ∈ proposal.subClusters, ∃ i s, t.subClusters.get? i = some s ∧
    s.productId = p.id ∧ s.name = n ∧ s.clusterId = none ∧ t.IsReady ignoreReadiness s
  balanced : ∀ m, proposal.scheduler = some m → m.check t.fleet proposal.subClusters = .ok ()

def mountedOn (p : ProductId) (k : ClusterId) (names : List String) (s : SubCluster.Record) :
    SubCluster.Record :=
  if s.productId = p ∧ s.name ∈ names then { s with clusterId := some k } else s

def created (t : Tables) (p : Product) (proposal : Cluster.Proposal) : Tables :=
  { t with
    nextId := t.nextId + 1
    clusters := t.clusters.insert ⟨t.nextId⟩ ((proposal.draft p.id).withId ⟨t.nextId⟩)
    subClusters := t.subClusters.map fun _ => mountedOn p.id ⟨t.nextId⟩ proposal.subClusters
    loadMatrices := t.loadMatrices.insert ⟨t.nextId⟩ (p.id, proposal.matrix t.fleet) }

/-- The cluster was created as asked for, nothing else changed, and it is shown as it is fetched. -/
structure CreatesCluster (ignoreReadiness : Bool) (t : Tables) (p : Product)
    (proposal : Cluster.Proposal) (cluster : Cluster) (t' : Tables) : Prop where
  tables : t' = t.created p proposal
  mounted : (t'.boundNames ⟨t.nextId⟩).Perm proposal.subClusters
  record : cluster.record = (proposal.draft p.id).withId ⟨t.nextId⟩
  scheduler : cluster.scheduler = some (proposal.matrix t.fleet)
  ready : cluster.ready = true
  fetched : t'.perform (Clusters.fetch ignoreReadiness p.name proposal.name) = (.ok cluster, t')

theorem unmounted_of_bindable {q : ProductId} {names : List String} {ids : List SubClusterId}
    (hb : Bindable ignoreReadiness t q names ids) :
    ∀ i ∈ ids, ∃ s, t.subClusters.get? i = some s ∧ s.clusterId = none := by
  intro i hi
  obtain ⟨s, hs, -, -, hfree, -⟩ := hb.free i hi
  exact ⟨s, hs, hfree⟩

theorem mount_eq_mountedOn (hnamed : Named t) {q : ProductId} {k : ClusterId} {names : List String}
    {ids : List SubClusterId} (hb : Bindable ignoreReadiness t q names ids) :
    (t.mount (some k) ids).subClusters = t.subClusters.map fun _ => mountedOn q k names := by
  apply SortedMap.ext
  intro i
  rw [get?_mount, SortedMap.get?_map]
  cases hs : t.subClusters.get? i with
  | none => rfl
  | some s =>
    rw [Option.map_some, Option.map_some, mountedOn]
    by_cases hi : i ∈ ids
    · rw [if_pos hi, if_pos ((mem_ids_iff hnamed hb hs).1 hi)]
    · have hother : ¬ (s.productId = q ∧ s.name ∈ names) :=
        fun hlisted => hi ((mem_ids_iff hnamed hb hs).2 hlisted)
      rw [if_neg hi, if_neg hother]

theorem Reachable.blackhole_not_listed (h : t.Reachable) {q : ProductId} {names : List String}
    {ids : List SubClusterId} (hb : Bindable ignoreReadiness t q names ids) :
    LoadMatrix.blackhole ∉ names := by
  intro hmem
  obtain ⟨i, -, s, hs, hname⟩ := hb.named _ hmem
  exact h.unreserved i s hs hname

theorem Reachable.matrix_fits (h : t.Reachable) (hword : proposal.subClusters.length < 2 ^ 31)
    (hdistinct : proposal.subClusters.Nodup) {q : ProductId} {ids : List SubClusterId}
    (hb : Bindable ignoreReadiness t q proposal.subClusters ids)
    (hbalanced : ∀ m, proposal.scheduler = some m →
      m.check t.fleet proposal.subClusters = .ok ()) :
    (proposal.matrix t.fleet).Fits t.fleet proposal.subClusters := by
  rw [Cluster.Proposal.matrix]
  cases hscheduler : proposal.scheduler with
  | none => exact LoadMatrix.defaultFor_fits hdistinct (h.blackhole_not_listed hb) hword
  | some m => exact LoadMatrix.check_eq_ok.1 (hbalanced m hscheduler)

theorem check_of_matrix_fits (hfits : (proposal.matrix t.fleet).Fits t.fleet proposal.subClusters)
    {m : LoadMatrix} (hm : proposal.scheduler = some m) :
    m.check t.fleet proposal.subClusters = .ok () := by
  have hmatrix : proposal.matrix t.fleet = m := by
    rw [Cluster.Proposal.matrix, hm, Option.getD_some]
  rw [← hmatrix]
  exact LoadMatrix.check_eq_ok.2 hfits

/-! What must be there for the operation to succeed. -/

theorem Reachable.creatable_of_yields (h : t.Reachable)
    (hnames : Clusters.namesRefusal? proposal.subClusters = none)
    (hp : t.products.get? p.id = some p) {cluster : Cluster}
    (hw : Yields answer t (Clusters.createOwned ignoreReadiness proposal p) cluster t') :
    Creatable ignoreReadiness t p proposal := by
  simp only [Clusters.createOwned, yields_bind, yields_ask, yields_refuseIf] at hw
  obtain ⟨same, _, hsame, _, _, ⟨hempty, rfl⟩, subClusters, _, hsub, bfes, _, hbfes, _, _, hcheck,
    -⟩ := hw
  cases hsame
  obtain ⟨rfl, hb⟩ := requireBindable_yields h.numbered hsub
  obtain ⟨rfl, rfl⟩ := bfeClusterNames_yields hbfes
  obtain ⟨-, hfits⟩ := checkMatrix_yields hcheck
  obtain ⟨hnonempty, hdistinct⟩ := namesRefusal?_eq_none hnames
  have hfresh := (isEmpty_namesakes_iff h.numbered).1 (by simpa using hempty)
  refine ⟨hp, hfresh, hnonempty, hdistinct, ?_, fun m => check_of_matrix_fits hfits⟩
  intro n hn
  obtain ⟨i, hi, s, hs, rfl⟩ := hb.named n hn
  obtain ⟨s', hs', howner, -, hfree, hready⟩ := hb.free i hi
  rw [hs] at hs'
  cases hs'
  exact ⟨i, s, hs, howner, rfl, hfree, hready⟩

theorem Reachable.creatable_of_ok (h : t.Reachable) (hproper : proposal.Proper) {product : String}
    {cluster : Cluster}
    (hok : (t.perform (Clusters.create ignoreReadiness product proposal)).1 = .ok cluster) :
    ∃ p, p.name = product ∧ Creatable ignoreReadiness t p proposal := by
  rw [Clusters.create_of_proper hproper] at hok
  cases hnames : Clusters.namesRefusal? proposal.subClusters with
  | some f =>
    rw [hnames] at hok
    cases hok
  | none =>
    rw [hnames] at hok
    obtain ⟨t', hw⟩ := yields_of_perform_update hok
    rw [yields_bind] at hw
    obtain ⟨p, _, hp, hw⟩ := hw
    obtain ⟨rfl, hproduct, rfl⟩ := requireProduct_yields h.numbered hp
    exact ⟨p, rfl, h.creatable_of_yields hnames hproduct hw⟩

/-! What it does then. -/

theorem Creatable.performs (hc : Creatable ignoreReadiness t p proposal) (h : t.Reachable)
    (hproper : proposal.Proper) (hword : proposal.subClusters.length < 2 ^ 31) :
    ∃ cluster, t.perform (Clusters.create ignoreReadiness p.name proposal) =
        (.ok cluster, t.created p proposal) ∧
      Yields answer (t.created p proposal)
        (assembleCluster ignoreReadiness ((proposal.draft p.id).withId ⟨t.nextId⟩)) cluster
        (t.created p proposal) := by
  have hn := h.numbered
  obtain ⟨subClusters, hsub⟩ := requireBindable_finds hn h.named h.consistent.supplied hc.free
  obtain ⟨-, hb⟩ := requireBindable_yields hn hsub
  have hfits := h.matrix_fits hword hc.distinct hb hc.balanced
  have hwritten : t.created p proposal = { t with
      nextId := t.nextId + 1
      clusters := t.clusters.insert ⟨t.nextId⟩ ((proposal.draft p.id).withId ⟨t.nextId⟩)
      subClusters := (t.mount (some ⟨t.nextId⟩) (subClusters.map (·.id))).subClusters
      loadMatrices := t.loadMatrices.insert ⟨t.nextId⟩ (p.id, proposal.matrix t.fleet) } := by
    rw [mount_eq_mountedOn h.named hb, created]
  have hnodup := requireBindable_nodup hn hsub
  obtain ⟨cluster, hassemble, hwrites⟩ := Clusters.mountNew_finds ignoreReadiness
    h.consistent.supplied hnodup (unmounted_of_bindable hb) _ hwritten
  refine ⟨cluster, ?_, hassemble⟩
  rw [Clusters.create_of_proper hproper, namesRefusal?_of_nodup hc.nonempty hc.distinct]
  apply perform_update_of_yields
  have hproduct := requireProduct_finds hn h.named hc.product
  have hempty := (isEmpty_namesakes_iff hn).2 hc.fresh
  simp only [Clusters.createOwned, yields_bind, yields_ask, yields_refuseIf]
  exact ⟨p, t, hproduct, _, t, rfl, (), t, ⟨by rw [hempty]; rfl, rfl⟩, subClusters, t, hsub, t.fleet,
    t, bfeClusterNames_finds t, (), t, checkMatrix_finds hfits, hwrites⟩

theorem Creatable.serves (hc : Creatable ignoreReadiness t p proposal) (h : t.Reachable) :
    (t.created p proposal).Serves ignoreReadiness ⟨t.nextId⟩ := by
  intro i s hs hk
  rw [created, SortedMap.get?_map, Option.map_eq_some_iff] at hs
  obtain ⟨s₀, hs₀, rfl⟩ := hs
  rw [mountedOn] at hk ⊢
  split at hk
  · rename_i hlisted
    obtain ⟨j, u, hu, howner, hname, -, hready⟩ := hc.free s₀.name hlisted.2
    have hkey : subClusterKey u = subClusterKey s₀ := Prod.ext (howner.trans hlisted.1.symm) hname
    have hid := h.named.subClusters j i u s₀ hu hs₀ hkey
    rw [hid, hs₀] at hu
    cases hu
    rw [if_pos hlisted]
    exact hready
  · -- Nothing was mounted on a cluster of that id, for there was none.
    obtain ⟨r, hr, -⟩ := h.intact.mounted.home hs₀ hk
    rw [h.numbered.clusters.get?_next] at hr
    cases hr

theorem Creatable.creates (hc : Creatable ignoreReadiness t p proposal) (h : t.Reachable)
    (hproper : proposal.Proper) (hword : proposal.subClusters.length < 2 ^ 31) :
    ∃ cluster, t.perform (Clusters.create ignoreReadiness p.name proposal) =
        (.ok cluster, t.created p proposal) ∧
      CreatesCluster ignoreReadiness t p proposal cluster (t.created p proposal) := by
  obtain ⟨cluster, hperform, hassemble⟩ := hc.performs h hproper hword
  have heffect := createCluster_effect h.numbered ignoreReadiness p.name proposal
  rw [hperform] at heffect
  have hn' := h.numbered.effect heffect
  have hnamed' := h.named.effect heffect
  have hmounted' := (h.intact.effect h.numbered heffect).mounted
  obtain ⟨-, hrecord, -⟩ := assembleCluster_yields hn' hassemble
  have hscheduler := (assembleCluster_shows hassemble).1
  have hnew : (t.created p proposal).clusters.get? ⟨t.nextId⟩ =
      some ((proposal.draft p.id).withId ⟨t.nextId⟩) := SortedMap.get?_insert_self _ _ _
  refine ⟨cluster, hperform, rfl, ?_, hrecord, ?_, ?_, ?_⟩
  · have hnodup := nodup_boundNames hn' hnamed' hmounted' ⟨t.nextId⟩
    apply (List.perm_ext_iff_of_nodup hnodup hc.distinct).2
    obtain ⟨subClusters, hsub⟩ :=
      requireBindable_finds h.numbered h.named h.consistent.supplied hc.free
    obtain ⟨-, hb⟩ := requireBindable_yields h.numbered hsub
    exact boundNames_create h.numbered hn' h.intact.mounted hb (mount_eq_mountedOn h.named hb).symm
  · have hmatrix : (t.created p proposal).loadMatrices.get? ⟨t.nextId⟩ =
        some (p.id, proposal.matrix t.fleet) := SortedMap.get?_insert_self _ _ _
    exact hscheduler.trans (congrArg (Option.map Prod.snd) hmatrix)
  · exact (assembleCluster_ready_iff hn' hassemble).2 (hc.serves h)
  · exact fetchCluster_performs hn' hnamed' hc.product hnew rfl hassemble

/-! What can go wrong when no matrix is supplied. -/

theorem Reachable.createOwned_fails (h : t.Reachable)
    (hnames : Clusters.namesRefusal? proposal.subClusters = none)
    (hword : proposal.subClusters.length < 2 ^ 31) (hnone : proposal.scheduler = none) {f : Fault}
    (hw : Fails answer t (Clusters.createOwned ignoreReadiness proposal p) f) : f.field = none := by
  simp only [Clusters.createOwned, fails_bind, fails_ask, fails_refuseIf, yields_ask,
    yields_refuseIf] at hw
  -- Step by step: a step refuses without a field, or it yields and the next one is due.
  obtain hanswer | ⟨same, _, hsame, hw⟩ := hw
  · cases hanswer
  cases hsame
  obtain ⟨-, rfl⟩ | ⟨_, _, ⟨-, rfl⟩, hw⟩ := hw
  · rfl
  obtain hrefused | ⟨subClusters, _, hsub, hw⟩ := hw
  · exact requireBindable_fails h.consistent.supplied hrefused
  have hnodup := requireBindable_nodup h.numbered hsub
  obtain ⟨rfl, hb⟩ := requireBindable_yields h.numbered hsub
  obtain hunread | ⟨bfes, _, hbfes, hw⟩ := hw
  · exact absurd hunread (bfeClusterNames_finds _).not_fails
  obtain ⟨rfl, rfl⟩ := bfeClusterNames_yields hbfes
  have hfits := h.matrix_fits hword (namesRefusal?_eq_none hnames).2 hb fun m hm => by
    rw [hnone] at hm
    cases hm
  obtain hdefect | ⟨_, _, hcheck, hw⟩ := hw
  · exact absurd hdefect (checkMatrix_finds hfits).not_fails
  obtain ⟨rfl, -⟩ := checkMatrix_yields hcheck
  obtain ⟨cluster, -, hwrites⟩ := Clusters.mountNew_finds ignoreReadiness h.consistent.supplied
    hnodup (unmounted_of_bindable hb) (proposal.matrix _) rfl
  exact absurd hw hwrites.not_fails

theorem Reachable.create_fails (h : t.Reachable) (hproper : proposal.Proper)
    (hword : proposal.subClusters.length < 2 ^ 31) (hnone : proposal.scheduler = none)
    {product : String} {f : Fault}
    (hf : (t.perform (Clusters.create ignoreReadiness product proposal)).1 = .error f) :
    Clusters.namesRefusal? proposal.subClusters = some f ∨ f.field = none := by
  rw [Clusters.create_of_proper hproper] at hf
  cases hnames : Clusters.namesRefusal? proposal.subClusters with
  | some g =>
    rw [hnames] at hf
    cases hf
    exact Or.inl rfl
  | none =>
    right
    rw [hnames] at hf
    have hfails := fails_of_perform_update hf
    rw [fails_bind] at hfails
    obtain hfails | ⟨p, _, hp, hfails⟩ := hfails
    · exact requireProduct_fails hfails
    · obtain ⟨rfl, -, -⟩ := requireProduct_yields h.numbered hp
      exact h.createOwned_fails hnames hword hnone hfails

/-- After any events, a proper request for a cluster succeeds exactly when its product is there, its
name is new in the fleet, its sub-clusters are free and listed once each, and the matrix it may bring
passes its check. Then the cluster is there as asked for, with equal shares if it brought no matrix,
and nothing else changes. Equal shares are never found to be bad. -/
theorem run_creates (events : List Event) (ignoreReadiness : Bool) (product : String)
    (proposal : Cluster.Proposal) (hproper : proposal.Proper)
    (hword : proposal.subClusters.length < 2 ^ 31) :
    let t := start.run events
    let outcome := t.perform (Clusters.create ignoreReadiness product proposal)
    ((∃ cluster, outcome.1 = .ok cluster) ↔
      ∃ p, p.name = product ∧ Creatable ignoreReadiness t p proposal) ∧
    (∀ cluster, outcome.1 = .ok cluster →
      ∃ p, p.name = product ∧ t.products.get? p.id = some p ∧
        CreatesCluster ignoreReadiness t p proposal cluster outcome.2) ∧
    (proposal.scheduler = none → ∀ d : LoadMatrix.Defect, outcome.1 ≠ .error d.fault) := by
  intro t outcome
  have h : t.Reachable := ⟨events, rfl⟩
  refine ⟨⟨?_, ?_⟩, ?_, ?_⟩
  · rintro ⟨cluster, hok⟩
    exact h.creatable_of_ok hproper hok
  · rintro ⟨p, rfl, hc⟩
    obtain ⟨cluster, hperform, -⟩ := hc.creates h hproper hword
    exact ⟨cluster, congrArg Prod.fst hperform⟩
  · intro cluster hok
    obtain ⟨p, rfl, hc⟩ := h.creatable_of_ok hproper hok
    obtain ⟨answered, hperform, hcreates⟩ := hc.creates h hproper hword
    have houtcome : outcome = (.ok answered, t.created p proposal) := hperform
    rw [houtcome] at hok ⊢
    cases hok
    exact ⟨p, rfl, hc.product, hcreates⟩
  · intro hnone d hd
    rcases h.create_fails hproper hword hnone hd with hnames | hfield
    · exact namesRefusal?_ne_fault d hnames
    · cases hfield

def secondCluster : Cluster.Proposal := ⟨"back", "", {}, {}, {}, ["west"], none⟩

theorem drainedFleet_creates :
    secondCluster.Proper ∧ secondCluster.subClusters.length < 2 ^ 31 ∧
      let outcome := (start.run drainedFleet).perform (Clusters.create false "shop" secondCluster)
      ∃ cluster p, outcome.1 = .ok cluster ∧ p.name = "shop" ∧
        Creatable false (start.run drainedFleet) p secondCluster ∧
        (∃ q, q.name = "shop" ∧
          CreatesCluster false (start.run drainedFleet) q secondCluster cluster outcome.2) := by
  have hproper : secondCluster.Proper :=
    ⟨by decide +kernel, by decide +kernel, by decide +kernel⟩
  have hword : secondCluster.subClusters.length < 2 ^ 31 := by decide
  obtain ⟨hiff, hcreates, -⟩ := run_creates drainedFleet false "shop" secondCluster hproper hword
  have hok : ((start.run drainedFleet).perform
      (Clusters.create false "shop" secondCluster)).1.isOk = true := by decide +kernel
  obtain ⟨cluster, hcluster⟩ := exists_of_isOk hok
  obtain ⟨p, hp, hcreatable⟩ := hiff.1 ⟨cluster, hcluster⟩
  obtain ⟨q, hq, -, hmade⟩ := hcreates cluster hcluster
  exact ⟨hproper, hword, cluster, p, hcluster, hp, hcreatable, q, hq, hmade⟩

end FleetControl.Store.Tables
