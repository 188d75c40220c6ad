import FleetControl.Proofs.CleanData
import FleetControl.Proofs.Consistent
import FleetControl.Proofs.Managers
import FleetControl.Proofs.Requests

/-!
Programs that bring sub-clusters, pools and load matrices together. These could report dirty data, but
only if a pool or a matrix were missing: as long as every stored sub-cluster has a stored pool, they do
not, and they leave it so. On consistent tables no manager reports dirty data.
-/

namespace FleetControl

def Store.Request.supplies : Store.Request → Bool
  | .createPool _ | .updatePoolInstances .. | .deletePool _ | .createSubCluster _
  | .updateSubCluster .. | .deleteSubCluster _ => true
  | _ => false

namespace Control

open Store Store.Work Store.Operation Store.Tables

variable {I : Tables → Prop} {t t' : Tables}

theorem Supplied.mount (h : Supplied t) (cluster : Option ClusterId) (ids : List SubClusterId) :
    Supplied (t.mount cluster ids) := by
  intro s hs
  obtain ⟨i, hget⟩ := SortedMap.mem_values.1 hs
  obtain ⟨s₀, hs₀, heq, -⟩ := exists_of_get?_mount hget
  obtain ⟨q, hq, hid⟩ := h s₀ (SortedMap.mem_values.2 ⟨i, hs₀⟩)
  refine ⟨q, hq, ?_⟩
  rw [hid, heq]

theorem Supplied.answer {r : Request} (hr : r.supplies = false) (h : Supplied t) :
    Supplied (Tables.answer r t).2 := by
  cases r with
  | bindSubClusters cluster ids =>
    refine writeEach_keeps (fun t i t' ht hbind => ?_) h ids
    obtain ⟨rfl, -⟩ := bindOne_ok hbind
    exact ht.mount _ _
  | unbindSubClusters ids =>
    refine writeEach_keeps (fun t i t' ht hunbind => ?_) h ids
    obtain rfl := unbindOne_ok hunbind
    exact ht.mount _ _
  | updateProduct | deleteProduct | deleteBfeCluster | updateCluster | deleteCluster | deleteDomain
  | setDefaultCertificate | deleteCertificate => exact change_keeps h fun _ _ => h
  | createPool | updatePoolInstances | deletePool | createSubCluster | updateSubCluster
  | deleteSubCluster => cases hr
  | _ => exact h

theorem clean_keep {r : Request} (hr : r.supplies = false) : (ask r).Clean Supplied :=
  clean_ask fun _ ht => ht.answer hr

theorem resolveSubClusters_clean (h : Supplied t) {records : List SubCluster.Record}
    (hrecords : ∀ r ∈ records, r ∈ t.subClusters.values) :
    (resolveSubClusters records).CleanOn Supplied t := by
  obtain ⟨subClusters, hresolve⟩ := h.resolve hrecords
  exact .of_yields hresolve h

theorem assembleCluster_clean (ignore : Bool) (record : Cluster.Record) :
    (assembleCluster ignore record).Clean Supplied := by
  intro t h
  obtain ⟨cluster, hassemble⟩ := h.assemble ignore record
  exact .of_yields hassemble h

theorem clean_fetchSubClusters {α : Type} {filter : SubClusterFilter}
    {k : List SubCluster.Record → Work α}
    (hk : ∀ t, Supplied t → ∀ records : List SubCluster.Record,
      (∀ r ∈ records, r ∈ t.subClusters.values) → (k records).CleanOn Supplied t) :
    (ask (.fetchSubClusters filter) >>= k).Clean Supplied := by
  intro t h
  refine CleanOn.bind (clean_fetch rfl t h) fun records t' ht' hfetch => ?_
  rw [yields_ask] at hfetch
  cases hfetch
  exact hk t h _ fun r hr => mem_values_of_mem_select hr

theorem SubClusters.resolveFound_clean (p : Product) (name : String) :
    (requireSubCluster p name >>= SubClusters.resolveOne).Clean Supplied := by
  have hresolve : ∀ t, Supplied t → ∀ r ∈ t.subClusters.values,
      (SubClusters.resolveOne r).CleanOn Supplied t := by
    intro t h r hr
    obtain ⟨s, hs⟩ := h.attach hr List.mem_cons_self
    have hyields : Yields answer t (SubClusters.resolveOne r) s t := by
      simp only [SubClusters.resolveOne, yields_bind, yields_ask, yields_ofExcept]
      exact ⟨_, t, rfl, hs, rfl⟩
    exact .of_yields hyields h
  intro t h
  refine CleanOn.bind (requireSubCluster_clean p name t h) fun r t' ht' hr => ?_
  simp only [requireSubCluster, yields_bind, yields_ask, yields_require] at hr
  obtain ⟨found, _, hfetch, hhead, rfl⟩ := hr
  cases hfetch
  exact hresolve t h r (mem_values_of_mem_select (List.mem_of_mem_head? hhead))

theorem SubClusters.fetch_clean (product name : String) :
    (SubClusters.fetch product name).Clean Supplied :=
  clean_bind (requireProduct_clean product) fun owner => SubClusters.resolveFound_clean owner name

theorem SubClusters.fetchAll_clean (product : String) :
    (SubClusters.fetchAll product).Clean Supplied := by
  refine clean_bind (requireProduct_clean product) fun owner => ?_
  exact clean_fetchSubClusters fun t h records hrecords => resolveSubClusters_clean h hrecords

theorem SubClusters.update_clean (hn : t.Numbered) (h : Supplied t) (product name : String)
    (change : SubCluster.Change) : (SubClusters.update product name change).CleanOn Supplied t := by
  apply cleanOn_guarded fun _ => Findings.refusal?_clean
  refine CleanOn.bind (requireProduct_clean product t h) fun owner _ _ howner => ?_
  obtain rfl := fetches_yields (requireProduct_fetches product) howner
  refine CleanOn.bind (requireSubCluster_clean owner name _ h) fun record _ _ hrecord => ?_
  obtain ⟨rfl, hstored, -⟩ := requireSubCluster_yields hn hrecord
  refine CleanOn.bind (SubClusters.newPool_clean owner record _ _ h) fun pool _ _ hpool => ?_
  obtain ⟨rfl, hbindable⟩ := newPool_yields hn hpool
  refine CleanOn.bind (cleanOn_ask ?_) fun _ t' ht' _ =>
    SubClusters.resolveFound_clean owner name t' ht'
  refine change_keeps (P := Supplied) h fun s hs s' hs' => ?_
  obtain ⟨i, hget⟩ := SortedMap.mem_values.1 hs'
  rw [SortedMap.get?_insert] at hget
  split at hget
  · cases hget
    cases pool with
    | none => exact h s (SortedMap.mem_values.2 ⟨_, hs⟩)
    | some q =>
      obtain ⟨-, found, hfound, -⟩ := hbindable rfl
      exact ⟨found, SortedMap.mem_values.2 ⟨q, hfound⟩, hn.pools.own hfound⟩
  · exact h s' (SortedMap.mem_values.2 ⟨i, hget⟩)

theorem Clusters.requireBindable_clean (ignore : Bool) (p : Product) (names : List String) :
    (Clusters.requireBindable ignore p names).Clean Supplied := by
  have hrefusal : ∀ (s : SubCluster) (f : Fault),
      Clusters.bindingRefusal? ignore s = some f → f.isDirty = false := by
    intro s f hf
    rw [Clusters.bindingRefusal?] at hf
    split at hf
    · cases hf
      rfl
    · split at hf
      · cases hf
        rfl
      · cases hf
  cases names with
  | nil => exact clean_done _
  | cons n names =>
    refine clean_fetchSubClusters fun t h records hrecords => ?_
    split
    · exact clean_fail rfl t h
    · refine (resolveSubClusters_clean h hrecords).bind fun subClusters t' ht' _ => ?_
      split
      · rename_i f hf
        obtain ⟨s, -, hs⟩ := List.exists_of_findSome?_eq_some hf
        exact clean_fail (hrefusal s f hs) t' ht'
      · exact clean_pure _ t' ht'

theorem Clusters.checkMatrix_clean (m : LoadMatrix) (bfes names : List String) :
    (Clusters.checkMatrix m bfes names).Clean I :=
  clean_mapError (fun _ => rfl) _

theorem Clusters.create_clean (ignore : Bool) (product : String) (proposal : Cluster.Proposal) :
    (Clusters.create ignore product proposal).Clean Supplied := by
  apply clean_guarded fun _ => Findings.refusal?_clean
  apply clean_guarded fun _ => Clusters.reservedRefusal?_clean
  apply clean_guarded fun _ => StickySessions.refusal?_clean
  apply clean_guarded fun _ => Clusters.namesRefusal?_clean
  refine clean_bind (requireProduct_clean product) fun owner => ?_
  refine clean_bind (clean_fetch rfl) fun _ => ?_
  refine clean_bind (clean_refuseIf rfl _) fun _ => ?_
  refine clean_bind (Clusters.requireBindable_clean ignore owner _) fun subClusters => ?_
  refine clean_bind bfeClusterNames_clean fun bfes => ?_
  refine clean_bind (Clusters.checkMatrix_clean _ _ _) fun _ => ?_
  refine clean_bind (clean_keep rfl) fun record => ?_
  refine clean_bind (clean_keep rfl) fun _ => ?_
  refine clean_bind (clean_keep rfl) fun _ => ?_
  exact assembleCluster_clean ignore record

theorem Clusters.replaceMatrix_clean (p : Product) (record : Cluster.Record)
    (matrix : LoadMatrix) : (Clusters.replaceMatrix p record matrix).Clean Supplied := by
  refine clean_bind (clean_fetch rfl) fun bound => ?_
  refine clean_bind bfeClusterNames_clean fun bfes => ?_
  exact clean_bind (Clusters.checkMatrix_clean _ _ _) fun _ => clean_keep rfl

theorem Clusters.updateLocked_clean (ignore : Bool) (change : Cluster.Change) (p : Product)
    (record : Cluster.Record) : (Clusters.updateLocked ignore change p record).Clean Supplied := by
  have hstore : (do ask (.updateCluster (change.apply record))
                    assembleCluster ignore (change.apply record)).Clean Supplied :=
    clean_bind (clean_keep rfl) fun _ => assembleCluster_clean ignore _
  unfold Clusters.updateLocked
  dsimp only
  split
  · exact clean_bind (Clusters.replaceMatrix_clean p _ _) fun _ => hstore
  · exact clean_bind (clean_done _) fun _ => hstore

theorem Clusters.update_clean (ignore : Bool) (product cluster : String)
    (change : Cluster.Change) : (Clusters.update ignore product cluster change).Clean Supplied := by
  rw [Clusters.update_eq]
  apply clean_guarded fun _ => Findings.refusal?_clean
  apply clean_guarded
  · intro f hf
    obtain ⟨s, -, hs⟩ := Option.bind_eq_some_iff.1 hf
    exact StickySessions.refusal?_clean hs
  · refine clean_bind (requireProduct_clean product) fun owner => ?_
    refine clean_bind (requireLockedCluster_clean owner cluster) fun record => ?_
    exact Clusters.updateLocked_clean ignore change owner record

theorem Clusters.rebindLocked_clean (hb : Balanced t) (h : Supplied t) (ignore : Bool)
    (target : List String) (p : Product) {record : Cluster.Record}
    (hstored : t.clusters.get? record.id = some record) :
    (Clusters.rebindLocked ignore target p record).CleanOn Supplied t := by
  obtain ⟨matrix, hmatrix⟩ := (hb record.id record.productId).2 ⟨record, hstored, rfl⟩
  refine CleanOn.bind (clean_fetch rfl t h) fun current _ _ hcurrent => ?_
  obtain ⟨rfl, -⟩ := boundSubClusters_yields hcurrent
  refine CleanOn.bind (Clusters.requireBindable_clean ignore p _ _ h) fun added _ _ hadded => ?_
  obtain rfl := fetches_yields (Clusters.requireBindable_asks (fun _ hr => hr) ignore p _) hadded
  refine CleanOn.bind (clean_fetch rfl _ h) fun stored _ _ hfetch => ?_
  rw [yields_ask] at hfetch
  cases hfetch
  rw [hmatrix]
  refine CleanOn.bind (clean_done matrix _ h) fun matrix t' ht' _ => ?_
  refine clean_bind (clean_mapError (fun _ => rfl) _) (fun rebound => ?_) t' ht'
  refine clean_bind bfeClusterNames_clean fun bfes => ?_
  refine clean_bind (Clusters.checkMatrix_clean _ _ _) fun _ => ?_
  refine clean_bind (clean_keep rfl) fun _ => ?_
  refine clean_bind (clean_keep rfl) fun _ => ?_
  refine clean_bind (clean_keep rfl) fun _ => ?_
  exact assembleCluster_clean ignore record

theorem Clusters.rebind_clean (hn : t.Numbered) (hb : Balanced t) (h : Supplied t) (ignore : Bool)
    (product cluster : String) (target : List String) :
    (Clusters.rebind ignore product cluster target).CleanOn Supplied t := by
  rw [Clusters.rebind_eq]
  apply cleanOn_guarded fun _ => Clusters.namesRefusal?_clean
  refine CleanOn.bind (requireProduct_clean product t h) fun owner _ _ howner => ?_
  obtain rfl := fetches_yields (requireProduct_fetches product) howner
  refine CleanOn.bind (requireLockedCluster_clean owner cluster _ h) fun record _ _ hrecord => ?_
  obtain ⟨rfl, hstored, -⟩ := requireLockedCluster_yields hn hrecord
  exact Clusters.rebindLocked_clean hb h ignore target owner hstored

theorem Clusters.delete_clean (ignore : Bool) (product cluster : String) :
    (Clusters.delete ignore [routeRuleChecker] product cluster).Clean Supplied := by
  refine clean_bind (requireProduct_clean product) fun owner => ?_
  refine clean_bind (requireLockedCluster_clean owner cluster) fun record => ?_
  refine clean_bind (assembleCluster_clean ignore record) fun assembled => ?_
  refine clean_bind ?_ fun _ => ?_
  · have hcheck : (routeRuleChecker.check owner assembled).Clean Supplied :=
      clean_bind (clusterInRules_clean owner assembled.id) fun _ => clean_pure _
    refine clean_bind hcheck fun veto => ?_
    split
    · exact clean_fail rfl
    · exact clean_done _
  · refine clean_bind (clean_keep rfl) fun _ => ?_
    exact clean_bind (clean_keep rfl) fun _ => clean_keep rfl

theorem Clusters.fetch_clean (ignore : Bool) (product cluster : String) :
    (Clusters.fetch ignore product cluster).Clean Supplied := by
  refine clean_bind (requireProduct_clean product) fun owner => ?_
  refine clean_bind (requireCluster_clean owner cluster) fun record => ?_
  exact assembleCluster_clean ignore record

theorem Clusters.fetchAll_clean (ignore : Bool) (product : String) :
    (Clusters.fetchAll ignore product).Clean Supplied := by
  refine clean_bind (requireProduct_clean product) fun owner => ?_
  refine clean_bind (clean_fetch rfl) fun records => ?_
  exact clean_forAll (assembleCluster_clean ignore) records

theorem Routes.resolve_clean (ignore : Bool) (p : Product) (name : String)
    (known : Routes.Resolved) : (Routes.resolve ignore p name known).Clean Supplied := by
  rw [Routes.resolve]
  split
  · exact clean_done _
  · refine clean_bind (requireCluster_clean p name) fun record => ?_
    refine clean_bind (assembleCluster_clean ignore record) fun cluster => ?_
    exact clean_bind (clean_refuseIf rfl _) fun _ => clean_pure _

theorem Routes.resolveBasic_clean (ignore : Bool) (p : Product) (rules : List BasicRule)
    (known : Routes.Resolved) : (Routes.resolveBasic ignore p rules known).Clean Supplied := by
  induction rules generalizing known with
  | nil => exact clean_done _
  | cons r rules ih =>
    rw [Routes.resolveBasic]
    split
    · exact clean_bind (ih known) fun _ => clean_pure _
    · refine clean_bind (Routes.resolve_clean ignore p r.clusterName known) fun resolved => ?_
      exact clean_bind (ih resolved.2) fun _ => clean_pure _

theorem Routes.resolveAdvanced_clean (ignore : Bool) (p : Product) (rules : List AdvancedRule)
    (known : Routes.Resolved) : (Routes.resolveAdvanced ignore p rules known).Clean Supplied := by
  induction rules generalizing known with
  | nil => exact clean_done _
  | cons r rules ih =>
    refine clean_bind (Routes.resolve_clean ignore p r.clusterName known) fun resolved => ?_
    exact clean_bind (ih resolved.2) fun _ => clean_pure _

theorem Routes.replace_clean (ignore : Bool) (product : String) (rules : RouteRules) :
    (Routes.replace ignore product rules).Clean Supplied := by
  apply clean_guarded fun _ => Fault.clean_map RouteRules.Defect.fault_clean
  refine clean_bind (requireProduct_clean product) fun owner => ?_
  refine clean_bind (clean_keep rfl) fun _ => ?_
  refine clean_bind (clean_fetch rfl) fun domains => ?_
  split
  · exact clean_fail rfl
  · refine clean_bind (Routes.resolveBasic_clean ignore owner _ _) fun basic => ?_
    refine clean_bind (Routes.resolveAdvanced_clean ignore owner _ _) fun advanced => ?_
    refine clean_bind (clean_keep rfl) fun _ => ?_
    exact clean_bind (clean_keep rfl) fun _ => clean_pure _

end Control

namespace Call

open Control Store Store.Tables Store.Work

variable {t : Tables}

theorem operation_clean (h : Consistent t) (settings : ControlSettings) (now : Instant) {c : Call}
    (hc : ∀ topic last, c ≠ .exportTopic topic last) {f : Fault}
    (hf : (t.perform (c.operation settings now)).1 = .error f) : f.isDirty = false := by
  have hn := h.numbered
  have hs := h.supplied
  suffices hclean : ∃ I, (c.operation settings now).CleanOn I t by
    obtain ⟨I, hI⟩ := hclean
    exact hI.perform hf
  cases c with
  | createProduct draft => exact ⟨_, Products.create_clean draft t trivial⟩
  | updateProduct name change => exact ⟨_, Products.update_clean name change t trivial⟩
  | deleteProduct name => exact ⟨_, Products.delete_clean name t trivial⟩
  | fetchProduct name => exact ⟨Anything, requireProduct_clean name t trivial⟩
  | createBfeCluster proposal => exact ⟨_, BfeClusters.create_clean proposal t trivial⟩
  | deleteBfeCluster name => exact ⟨_, BfeClusters.delete_clean name t trivial⟩
  | createPool product proposal => exact ⟨_, Pools.create_clean product proposal t trivial⟩
  | updatePoolInstances product pool instances =>
    exact ⟨_, Pools.updateInstances_clean product pool instances t trivial⟩
  | deletePool product pool => exact ⟨_, Pools.delete_clean product pool t trivial⟩
  | poolDeletable product pool => exact ⟨_, Pools.deletable_clean product pool t trivial⟩
  | fetchPool product pool => exact ⟨_, Pools.fetch_clean product pool t trivial⟩
  | fetchPools product => exact ⟨_, Pools.fetchAll_clean product t trivial⟩
  | createSubCluster product proposal =>
    exact ⟨_, SubClusters.create_clean product proposal t trivial⟩
  | updateSubCluster product name change =>
    exact ⟨_, SubClusters.update_clean hn hs product name change⟩
  | deleteSubCluster product name => exact ⟨_, SubClusters.delete_clean product name t trivial⟩
  | fetchSubCluster product name => exact ⟨_, SubClusters.fetch_clean product name t hs⟩
  | fetchSubClusters product => exact ⟨_, SubClusters.fetchAll_clean product t hs⟩
  | createCluster product proposal => exact ⟨_, Clusters.create_clean _ product proposal t hs⟩
  | updateCluster product cluster change =>
    exact ⟨_, Clusters.update_clean _ product cluster change t hs⟩
  | rebindSubClusters product cluster names =>
    exact ⟨_, Clusters.rebind_clean hn h.intact.balanced hs _ product cluster names⟩
  | deleteCluster product cluster => exact ⟨_, Clusters.delete_clean _ product cluster t hs⟩
  | fetchCluster product cluster => exact ⟨_, Clusters.fetch_clean _ product cluster t hs⟩
  | fetchClusters product => exact ⟨_, Clusters.fetchAll_clean _ product t hs⟩
  | createDomain product proposal => exact ⟨_, Domains.create_clean product proposal t trivial⟩
  | deleteDomain product name => exact ⟨_, Domains.delete_clean product name t trivial⟩
  | fetchDomains product => exact ⟨_, Domains.fetchAll_clean product t trivial⟩
  | replaceRules product rules => exact ⟨_, Routes.replace_clean _ product rules t hs⟩
  | fetchRules product => exact ⟨_, Routes.fetch_clean product t trivial⟩
  | clusterReferenced product cluster =>
    exact ⟨_, Routes.clusterReferenced_clean product cluster t trivial⟩
  | domainReferenced host => exact ⟨Anything, hostInRules_clean host t trivial⟩
  | createCertificate draft => exact ⟨_, Certificates.create_clean draft t trivial⟩
  | setDefaultCertificate name => exact ⟨_, Certificates.setDefault_clean name t trivial⟩
  | deleteCertificate name => exact ⟨_, Certificates.delete_clean name t trivial⟩
  | fetchProducts | fetchBfeClusters | fetchCertificates =>
    exact ⟨Anything, clean_fetch rfl t trivial⟩
  | latestVersion topic | versionHistory topic => exact ⟨_, clean_write _ t trivial⟩
  | exportTopic topic last => exact absurd rfl (hc topic last)

end Call
end FleetControl
