import FleetControl.ControlPlane
import FleetControl.Proofs.Reads

/-!
Dirty data. An operation that comes upon stored records which cannot stand together ends in a fault of
its own kind. Tables never refuse a request with it, and most programs of the managers have no such
fault in them, whatever the store answers.
-/

namespace FleetControl

def Fault.isDirty : Fault → Bool
  | dirtyData _ => true
  | _ => false

namespace Store

open Tables

variable {α β : Type} {I : Tables → Prop} {t t' : Tables}

namespace Work

def CleanOn (I : Tables → Prop) (t : Tables) (w : Work α) : Prop :=
  (∀ f, (w.run answer t).1 = .error f → f.isDirty = false) ∧ I (w.run answer t).2

def Clean (I : Tables → Prop) (w : Work α) : Prop := ∀ t, I t → w.CleanOn I t

theorem CleanOn.of_yields {w : Work α} {a : α} (h : Yields answer t w a t') (ht : I t') :
    w.CleanOn I t := by
  rw [CleanOn, show w.run answer t = _ from h]
  refine ⟨?_, ht⟩
  rintro f ⟨⟩

theorem CleanOn.bind {w : Work α} {k : α → Work β} (hw : w.CleanOn I t)
    (hk : ∀ a t', I t' → Yields answer t w a t' → (k a).CleanOn I t') : (w >>= k).CleanOn I t := by
  rw [CleanOn, bind_eq, run_bind]
  rcases hrun : w.run answer t with ⟨x, t'⟩
  obtain ⟨hclean, ht'⟩ := hw
  rw [hrun] at hclean ht'
  cases x with
  | ok a => exact hk a t' ht' hrun
  | error f =>
    refine ⟨?_, ht'⟩
    rintro f' ⟨⟩
    exact hclean f rfl

theorem clean_bind {w : Work α} {k : α → Work β} (hw : w.Clean I) (hk : ∀ a, (k a).Clean I) :
    (w >>= k).Clean I :=
  fun t ht => (hw t ht).bind fun a t' ht' _ => hk a t' ht'

theorem clean_done (a : α) : (done a).Clean I :=
  fun _ ht => .of_yields (yields_done.2 ⟨rfl, rfl⟩) ht

theorem clean_pure (a : α) : (pure a : Work α).Clean I := clean_done a

theorem clean_fail {f : Fault} (hf : f.isDirty = false) : (fail f : Work α).Clean I := by
  refine fun t ht => ⟨?_, ht⟩
  rintro f' ⟨⟩
  exact hf

theorem clean_ofExcept {e : Except Fault α} (he : ∀ f, e = .error f → f.isDirty = false) :
    (ofExcept e).Clean I := by
  cases e with
  | ok a => exact clean_done a
  | error f => exact clean_fail (he f rfl)

theorem clean_mapError {ε : Type} {fault : ε → Fault} (hf : ∀ d, (fault d).isDirty = false)
    (e : Except ε α) : (ofExcept (e.mapError fault)).Clean I := by
  cases e with
  | ok a => exact clean_done a
  | error d => exact clean_fail (hf d)

theorem clean_require {f : Fault} (hf : f.isDirty = false) (o : Option α) :
    (require f o).Clean I := by
  cases o with
  | none => exact clean_fail hf
  | some a => exact clean_done a

theorem clean_refuseIf {f : Fault} (hf : f.isDirty = false) (b : Bool) :
    (refuseIf f b).Clean I := by
  cases b with
  | false => exact clean_done ()
  | true => exact clean_fail hf

theorem clean_forAll {f : α → Work β} (hf : ∀ a, (f a).Clean I) (as : List α) :
    (forAll f as).Clean I := by
  induction as with
  | nil => exact clean_done []
  | cons a as ih => exact clean_bind (hf a) fun b => clean_bind ih fun bs => clean_pure (b :: bs)

end Work

namespace Tables

theorem change_clean {kind : Kind} {resource : String} {table : SortedMap (Id kind) α}
    {id : Id kind} {write : α → Tables} {f : Fault}
    (h : (change resource table id t write).1 = .error f) : f.isDirty = false := by
  rw [change] at h
  split at h
  · cases h
  · cases h
    rfl

theorem writeEach_clean {ι : Type} {write : Tables → ι → Except Fault Tables}
    (hwrite : ∀ t i f, write t i = .error f → f.isDirty = false) {ids : List ι} {f : Fault}
    (h : (writeEach write ids t).1 = .error f) : f.isDirty = false := by
  induction ids generalizing t with
  | nil => cases h
  | cons i ids ih =>
    rw [writeEach] at h
    split at h
    · exact ih h
    · cases h
      exact hwrite t i _ ‹_›

theorem bindOne_clean {cluster : ClusterId} {id : SubClusterId} {f : Fault}
    (h : t.bindOne cluster id = .error f) : f.isDirty = false := by
  rw [bindOne] at h
  split at h
  · cases h
    rfl
  · split at h
    · cases h
      rfl
    · cases h

theorem unbindOne_clean {id : SubClusterId} {f : Fault} (h : t.unbindOne id = .error f) :
    f.isDirty = false := by
  rw [unbindOne] at h
  split at h
  · cases h
    rfl
  · cases h

theorem answer_clean {r : Request} {f : Fault} (h : (answer r t).1 = .error f) :
    f.isDirty = false := by
  cases r with
  | bindSubClusters cluster ids => exact writeEach_clean (fun _ _ _ => bindOne_clean) h
  | unbindSubClusters ids => exact writeEach_clean (fun _ _ _ => unbindOne_clean) h
  | updateProduct | deleteProduct | updatePoolInstances | deletePool | deleteBfeCluster
  | updateSubCluster | deleteSubCluster | updateCluster | deleteCluster | deleteDomain
  | setDefaultCertificate | deleteCertificate => exact change_clean h
  | _ => cases h

end Tables

namespace Work

theorem cleanOn_ask {r : Request} (ht : I (answer r t).2) : (ask r).CleanOn I t := by
  rcases hanswer : answer r t with ⟨x, t'⟩
  rw [hanswer] at ht
  cases x with
  | ok x => exact .of_yields (yields_ask.2 hanswer) ht
  | error f =>
    rw [CleanOn, ask, run, hanswer]
    refine ⟨?_, ht⟩
    rintro f' ⟨⟩
    exact answer_clean (congrArg Prod.fst hanswer)

theorem clean_ask {r : Request} (hr : ∀ t, I t → I (answer r t).2) : (ask r).Clean I :=
  fun t ht => cleanOn_ask (hr t ht)

theorem clean_fetch {r : Request} (hr : r.fetches = true) : (ask r).Clean I := by
  refine clean_ask fun t ht => ?_
  rw [answer_fetches hr]
  exact ht

end Work

namespace Operation

def CleanOn (I : Tables → Prop) (t : Tables) : Operation α → Prop
  | refuse f => f.isDirty = false
  | query w | update w => w.CleanOn I t

def Clean (I : Tables → Prop) (op : Operation α) : Prop := ∀ t, I t → op.CleanOn I t

theorem cleanOn_guarded {refusal : Option Fault} {op : Operation α}
    (hrefusal : ∀ f, refusal = some f → f.isDirty = false) (h : op.CleanOn I t) :
    (op.guarded refusal).CleanOn I t := by
  cases refusal with
  | none => exact h
  | some f => exact hrefusal f rfl

theorem clean_guarded {refusal : Option Fault} {op : Operation α}
    (hrefusal : ∀ f, refusal = some f → f.isDirty = false) (h : op.Clean I) :
    (op.guarded refusal).Clean I :=
  fun t ht => cleanOn_guarded hrefusal (h t ht)

theorem CleanOn.perform {op : Operation α} (h : op.CleanOn I t) {f : Fault}
    (hf : (t.perform op).1 = .error f) : f.isDirty = false := by
  cases op with
  | refuse f' =>
    cases hf
    exact h
  | query w => exact h.1 f hf
  | update w =>
    rw [Tables.perform] at hf
    split at hf
    · cases hf
    · rename_i f' t' hrun
      cases hf
      exact h.1 f (congrArg Prod.fst hrun)

end Operation

end Store

/-! Refusals of requests as such. -/

theorem Findings.refusal?_clean {findings : Findings} {f : Fault}
    (h : findings.refusal? = some f) : f.isDirty = false := by
  rw [Findings.refusal?] at h
  split at h
  · cases h
  · cases h
    rfl

theorem StickySessions.refusal?_clean {s : StickySessions} {f : Fault}
    (h : s.refusal? = some f) : f.isDirty = false := by
  rw [StickySessions.refusal?] at h
  split at h
  · cases h
    rfl
  · cases h

theorem Fault.clean_map {δ : Type} {fault : δ → Fault} (hfault : ∀ d, (fault d).isDirty = false)
    {o : Option δ} {f : Fault} (h : o.map fault = some f) : f.isDirty = false := by
  obtain ⟨d, -, rfl⟩ := Option.map_eq_some_iff.1 h
  exact hfault d

theorem Instance.Defect.fault_clean (d : Instance.Defect) : d.fault.isDirty = false := by
  cases d <;> rfl

theorem RouteRules.Defect.fault_clean (d : RouteRules.Defect) : d.fault.isDirty = false := by
  cases d <;> rfl

theorem Pool.NameDefect.fault_clean (d : Pool.NameDefect) : d.fault.isDirty = false := by
  cases d <;> rfl

namespace Control

open Store Store.Work Store.Operation Store.Tables

variable {I : Tables → Prop} {t t' : Tables}

theorem Clusters.namesRefusal?_clean {names : List String} {f : Fault}
    (h : Clusters.namesRefusal? names = some f) : f.isDirty = false := by
  rw [Clusters.namesRefusal?] at h
  split at h
  · cases h
    rfl
  · exact Fault.clean_map (fun _ => rfl) h

theorem Clusters.reservedRefusal?_clean {name : String} {f : Fault}
    (h : Clusters.reservedRefusal? name = some f) : f.isDirty = false := by
  rw [Clusters.reservedRefusal?] at h
  split at h
  · cases h
    rfl
  · cases h

/-! Programs that cannot end in dirty data, whatever the tables hold. -/

theorem requireProduct_clean (name : String) : (requireProduct name).Clean I :=
  clean_bind (clean_fetch rfl) fun _ => clean_require rfl _

theorem requirePool_clean (name : String) : (requirePool name).Clean I :=
  clean_bind (clean_fetch rfl) fun _ => clean_require rfl _

theorem requireCluster_clean (p : Product) (name : String) : (requireCluster p name).Clean I :=
  clean_bind (clean_fetch rfl) fun _ => clean_require rfl _

theorem requireLockedCluster_clean (p : Product) (name : String) :
    (requireLockedCluster p name).Clean I := by
  refine clean_bind (requireCluster_clean p name) fun _ => ?_
  refine clean_bind (clean_ask fun _ ht => ht) fun _ => ?_
  exact clean_bind (clean_fetch rfl) fun _ => clean_require rfl _

theorem requireSubCluster_clean (p : Product) (name : String) :
    (requireSubCluster p name).Clean I :=
  clean_bind (clean_fetch rfl) fun _ => clean_require rfl _

theorem requireCertificate_clean (name : String) : (requireCertificate name).Clean I :=
  clean_bind (clean_fetch rfl) fun _ => clean_require rfl _

theorem bfeClusterNames_clean : bfeClusterNames.Clean I :=
  clean_bind (clean_fetch rfl) fun _ => clean_pure _

theorem clusterInRules_clean (p : Product) (c : ClusterId) : (clusterInRules p c).Clean I :=
  clean_bind (clean_fetch rfl) fun _ => clean_pure _

theorem hostInRules_clean (host : String) : (hostInRules host).Clean I :=
  clean_bind (clean_fetch rfl) fun _ => clean_pure _

abbrev Anything : Tables → Prop := fun _ => True

theorem clean_write (r : Request) : (ask r).Clean Anything := clean_ask fun _ _ => trivial

theorem Products.create_clean (draft : Product.Draft) : (Products.create draft).Clean Anything := by
  apply clean_guarded fun _ => Findings.refusal?_clean
  refine clean_bind (clean_fetch rfl) fun _ => ?_
  exact clean_bind (clean_refuseIf rfl _) fun _ => clean_write _

theorem Products.update_clean (name : String) (change : Product.Change) :
    (Products.update name change).Clean Anything := by
  apply clean_guarded fun _ => Findings.refusal?_clean
  refine clean_bind (requireProduct_clean name) fun _ => ?_
  refine clean_bind (clean_refuseIf rfl _) fun _ => ?_
  exact clean_bind (clean_write _) fun _ => clean_pure _

theorem Products.delete_clean (name : String) : (Products.delete name).Clean Anything := by
  refine clean_bind (requireProduct_clean name) fun product => ?_
  refine clean_bind (clean_refuseIf rfl _) fun _ => ?_
  refine clean_bind (clean_fetch rfl) fun clusters => ?_
  refine clean_bind (clean_fetch rfl) fun subClusters => ?_
  refine clean_bind (clean_fetch rfl) fun pools => ?_
  refine clean_bind (clean_fetch rfl) fun domains => ?_
  split
  · exact clean_fail rfl
  · exact clean_bind (clean_write _) fun _ => clean_write _

theorem Pools.requireOwned_clean (p : Product) (name : String) :
    (Pools.requireOwned p name).Clean I := by
  refine clean_bind (clean_mapError Pool.NameDefect.fault_clean _) fun full => ?_
  refine clean_bind (requirePool_clean full) fun _ => ?_
  exact clean_bind (clean_refuseIf rfl _) fun _ => clean_pure _

theorem Pools.references_clean (pool : Pool) : (Pools.references pool).Clean I :=
  clean_bind (clean_fetch rfl) fun _ => clean_bind (clean_fetch rfl) fun _ => clean_pure _

theorem Pools.instancesRefusal?_clean {instances : List Instance} {f : Fault}
    (h : Pools.instancesRefusal? instances = some f) : f.isDirty = false :=
  Fault.clean_map Instance.Defect.fault_clean h

theorem Pools.create_clean (product : String) (proposal : Pool.Proposal) :
    (Pools.create product proposal).Clean Anything := by
  apply clean_guarded fun _ => Findings.refusal?_clean
  refine clean_bind (requireProduct_clean product) fun owner => ?_
  refine clean_bind (clean_mapError Pool.NameDefect.fault_clean _) fun name => ?_
  split
  · exact clean_fail (Pools.instancesRefusal?_clean ‹_›)
  · refine clean_bind (clean_fetch rfl) fun _ => ?_
    exact clean_bind (clean_refuseIf rfl _) fun _ => clean_write _

theorem Pools.updateInstances_clean (product pool : String) (instances : List Instance) :
    (Pools.updateInstances product pool instances).Clean Anything := by
  apply clean_guarded fun _ => Pools.instancesRefusal?_clean
  refine clean_bind (requireProduct_clean product) fun owner => ?_
  refine clean_bind (Pools.requireOwned_clean owner pool) fun _ => ?_
  exact clean_bind (clean_write _) fun _ => clean_pure _

theorem Pools.delete_clean (product pool : String) :
    (Pools.delete product pool).Clean Anything := by
  refine clean_bind (requireProduct_clean product) fun owner => ?_
  refine clean_bind (Pools.requireOwned_clean owner pool) fun owned => ?_
  refine clean_bind (Pools.references_clean owned) fun _ => ?_
  exact clean_bind (clean_refuseIf rfl _) fun _ => clean_write _

theorem Pools.deletable_clean (product pool : String) :
    (Pools.deletable product pool).Clean Anything := by
  refine clean_bind (requireProduct_clean product) fun owner => ?_
  refine clean_bind (Pools.requireOwned_clean owner pool) fun owned => ?_
  exact clean_bind (Pools.references_clean owned) fun _ => clean_pure _

theorem Pools.fetch_clean (product pool : String) : (Pools.fetch product pool).Clean Anything :=
  clean_bind (requireProduct_clean product) fun owner => Pools.requireOwned_clean owner pool

theorem Pools.fetchAll_clean (product : String) : (Pools.fetchAll product).Clean Anything :=
  clean_bind (requireProduct_clean product) fun _ => clean_fetch rfl

theorem BfeClusters.extendMatrix_clean (bfe : String) (c : Cluster.Record) :
    (BfeClusters.extendMatrix bfe c).Clean Anything := by
  refine clean_bind (clean_fetch rfl) fun bound => ?_
  exact clean_bind (clean_fetch rfl) fun stored => clean_write _

theorem BfeClusters.shrinkMatrix_clean (bfe : String) (c : Cluster.Record) :
    (BfeClusters.shrinkMatrix bfe c).Clean Anything := by
  refine clean_bind (clean_fetch rfl) fun stored => ?_
  split
  · exact clean_done _
  · split
    · exact clean_write _
    · exact clean_done _

theorem BfeClusters.create_clean (proposal : BfeCluster.Proposal) :
    (BfeClusters.create proposal).Clean Anything := by
  apply clean_guarded fun _ => Findings.refusal?_clean
  refine clean_bind (clean_fetch rfl) fun _ => ?_
  refine clean_bind (clean_refuseIf rfl _) fun _ => ?_
  refine clean_bind (requirePool_clean _) fun _ => ?_
  refine clean_bind (clean_refuseIf rfl _) fun _ => ?_
  refine clean_bind (clean_write _) fun bfe => ?_
  refine clean_bind (clean_fetch rfl) fun clusters => ?_
  exact clean_bind (clean_forAll (BfeClusters.extendMatrix_clean _) clusters) fun _ => clean_pure _

theorem BfeClusters.delete_clean (name : String) :
    (BfeClusters.delete name).Clean Anything := by
  refine clean_bind (clean_fetch rfl) fun _ => ?_
  refine clean_bind (clean_require rfl _) fun bfe => ?_
  refine clean_bind (clean_fetch rfl) fun clusters => ?_
  refine clean_bind (clean_forAll (BfeClusters.shrinkMatrix_clean _) clusters) fun _ => ?_
  exact clean_write _

theorem SubClusters.requireBindablePool_clean (p : Product) (name : String) :
    (SubClusters.requireBindablePool p name).Clean I := by
  refine clean_bind (requirePool_clean _) fun _ => ?_
  exact clean_bind (clean_refuseIf rfl _) fun _ => clean_pure _

theorem SubClusters.newPool_clean (p : Product) (record : SubCluster.Record)
    (name : Option String) : (SubClusters.newPool p record name).Clean I := by
  cases name with
  | none => exact clean_done _
  | some name =>
    refine clean_bind (SubClusters.requireBindablePool_clean p name) fun pool => ?_
    split
    · exact clean_pure _
    · split
      · exact clean_fail rfl
      · exact clean_pure _

theorem SubClusters.create_clean (product : String) (proposal : SubCluster.Proposal) :
    (SubClusters.create product proposal).Clean Anything := by
  apply clean_guarded fun _ => Findings.refusal?_clean
  refine clean_bind (requireProduct_clean product) fun owner => ?_
  refine clean_bind (clean_fetch rfl) fun _ => ?_
  refine clean_bind (clean_refuseIf rfl _) fun _ => ?_
  refine clean_bind (SubClusters.requireBindablePool_clean owner _) fun pool => ?_
  exact clean_bind (clean_write _) fun _ => clean_pure _

theorem SubClusters.delete_clean (product name : String) :
    (SubClusters.delete product name).Clean Anything := by
  refine clean_bind (requireProduct_clean product) fun owner => ?_
  refine clean_bind (requireSubCluster_clean owner name) fun record => ?_
  split
  · exact clean_fail rfl
  · exact clean_write _

theorem Domains.create_clean (product : String) (proposal : Domain.Proposal) :
    (Domains.create product proposal).Clean Anything := by
  apply clean_guarded fun _ => Findings.refusal?_clean
  refine clean_bind (requireProduct_clean product) fun owner => ?_
  refine clean_bind (clean_fetch rfl) fun existing => ?_
  split
  · exact clean_fail rfl
  · exact clean_write _

theorem Domains.delete_clean (product domain : String) :
    (Domains.delete product domain).Clean Anything := by
  refine clean_bind (requireProduct_clean product) fun owner => ?_
  refine clean_bind (clean_fetch rfl) fun found => ?_
  refine clean_bind (clean_require rfl _) fun d => ?_
  refine clean_bind (clean_refuseIf rfl _) fun _ => ?_
  refine clean_bind (hostInRules_clean d.name) fun _ => ?_
  exact clean_bind (clean_refuseIf rfl _) fun _ => clean_write _

theorem Domains.fetchAll_clean (product : String) : (Domains.fetchAll product).Clean Anything :=
  clean_bind (requireProduct_clean product) fun _ => clean_fetch rfl

theorem Routes.fetch_clean (product : String) : (Routes.fetch product).Clean Anything :=
  clean_bind (requireProduct_clean product) fun _ => clean_bind (clean_fetch rfl) fun _ => clean_pure _

theorem Routes.clusterReferenced_clean (product cluster : String) :
    (Routes.clusterReferenced product cluster).Clean Anything := by
  refine clean_bind (requireProduct_clean product) fun owner => ?_
  refine clean_bind (requireCluster_clean owner cluster) fun record => ?_
  exact clusterInRules_clean owner record.id

theorem Certificates.create_clean (draft : Certificate.Draft) :
    (Certificates.create draft).Clean Anything := by
  apply clean_guarded fun _ => Findings.refusal?_clean
  refine clean_bind (clean_fetch rfl) fun _ => ?_
  refine clean_bind (clean_refuseIf rfl _) fun _ => ?_
  refine clean_bind (clean_fetch rfl) fun all => ?_
  refine clean_bind (clean_write _) fun certificate => ?_
  split
  · exact clean_bind (clean_write _) fun _ => clean_pure _
  · exact clean_pure _

theorem Certificates.setDefault_clean (name : String) :
    (Certificates.setDefault name).Clean Anything := by
  refine clean_bind (requireCertificate_clean name) fun certificate => ?_
  exact clean_bind (clean_write _) fun _ => clean_pure _

theorem Certificates.delete_clean (name : String) :
    (Certificates.delete name).Clean Anything := by
  refine clean_bind (requireCertificate_clean name) fun certificate => ?_
  refine clean_bind (clean_fetch rfl) fun all => ?_
  exact clean_bind (clean_refuseIf rfl _) fun _ => clean_write _

end Control
end FleetControl
