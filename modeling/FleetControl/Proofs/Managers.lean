import FleetControl.ControlPlane
import FleetControl.Proofs.Reads

/-!
What the managers ask of a store. A program asks for reads and for the writes of its own operation;
what holds of these holds of all its requests, whatever the store answers. So only exports look at the
ledger or write it, and a call of a manager runs the same whatever the ledger holds.
-/

namespace FleetControl.Store

open Work

def Request.fleet : Request → Bool
  | latestVersion _ | versionHistory _ | appendVersion _ => false
  | _ => true

def Request.putsMatrix : Request → Bool
  | putLoadMatrix .. => true
  | _ => false

def AllowsReads (P : Request → Prop) : Prop := ∀ r, r.fetches = true → P r

theorem allowsReads_fleet : AllowsReads (·.fleet = true) := by
  intro r hr
  cases r <;> first | rfl | cases hr

theorem allowsReads_keeping : AllowsReads (·.putsMatrix = false) := by
  intro r hr
  cases r <;> first | rfl | cases hr

namespace Operation

variable {α β : Type} {P Q : Request → Prop}

def Asks (P : Request → Prop) : Operation α → Prop
  | refuse _ => True
  | query w | update w => w.Only P

def Commits (P : Request → Prop) : Operation α → Prop
  | refuse _ | query _ => True
  | update w => w.Only P

theorem Asks.commits {op : Operation α} (h : op.Asks P) : op.Commits P := by
  cases op with
  | refuse f => trivial
  | query w => trivial
  | update w => exact h

theorem asks_guarded {refusal : Option Fault} {op : Operation α} (h : op.Asks P) :
    (op.guarded refusal).Asks P := by
  cases refusal with
  | none => exact h
  | some f => trivial

theorem Asks.map {op : Operation α} (h : op.Asks P) (g : α → β) : (op.map g).Asks P := by
  cases op with
  | refuse f => trivial
  | query w | update w => exact only_bind h fun a => only_done (g a)

theorem Commits.imp {op : Operation α} (h : op.Commits P) (hPQ : ∀ r, P r → Q r) :
    op.Commits Q := by
  cases op with
  | refuse f => trivial
  | query w => trivial
  | update w => exact Work.Only.imp h hPQ

end Operation
end FleetControl.Store

namespace FleetControl.Control.Clusters

open Store Store.Work

/-! What is done to a cluster once it is locked. -/

def updateLocked (ignoreReadiness : Bool) (change : Cluster.Change) (product : Product)
    (record : Cluster.Record) : Work Cluster := do
  let changed := change.apply record
  match change.scheduler with
  | some matrix => replaceMatrix product changed matrix
  | none => .done ()
  ask (.updateCluster changed)
  assembleCluster ignoreReadiness changed

theorem update_eq (ignore : Bool) (product cluster : String) (change : Cluster.Change) :
    update ignore product cluster change =
      .guarded change.findings.refusal? (.guarded (change.stickySessions.bind StickySessions.refusal?)
        (.update do
          let owner ← requireProduct product
          let record ← requireLockedCluster owner cluster
          updateLocked ignore change owner record)) := rfl

def rebindLocked (ignoreReadiness : Bool) (target : List String) (product : Product)
    (record : Cluster.Record) : Work Cluster := do
  let current ← boundSubClusters record.id
  let removed := difference (current.map (·.name)) target
  let added := difference target (current.map (·.name))
  let addedSubClusters ← requireBindable ignoreReadiness product added
  let stored ← ask (.fetchLoadMatrix record.id)
  let matrix ← require (noMatrix record) stored
  let rebound ← ofExcept ((matrix.rebind removed added).mapError LoadMatrix.Undrained.fault)
  let bfes ← bfeClusterNames
  checkMatrix rebound bfes target
  ask (.unbindSubClusters ((current.filter fun s => removed.contains s.name).map (·.id)))
  ask (.bindSubClusters record.id (addedSubClusters.map (·.id)))
  ask (.putLoadMatrix record.id product.id rebound)
  assembleCluster ignoreReadiness record

theorem rebind_eq (ignore : Bool) (product cluster : String) (target : List String) :
    rebind ignore product cluster target =
      .guarded (namesRefusal? target) (.update do
        let owner ← requireProduct product
        let record ← requireLockedCluster owner cluster
        rebindLocked ignore target owner record) := rfl

end FleetControl.Control.Clusters

namespace FleetControl.Control

open Store Store.Work Store.Operation

variable {P : Request → Prop} (hP : AllowsReads P)

include hP

/-! What the managers read with others. -/

theorem requireProduct_asks (name : String) : (requireProduct name).Only P :=
  (requireProduct_fetches name).imp hP

theorem requireLockedCluster_asks (hlock : ∀ id, P (.lockCluster id)) (p : Product)
    (name : String) : (requireLockedCluster p name).Only P := by
  refine only_bind ((requireCluster_fetches p name).imp hP) fun record => ?_
  refine only_bind (only_ask (hlock _)) fun _ => ?_
  exact only_bind (only_ask (hP _ rfl)) fun _ => only_require _ _

theorem assembleCluster_asks (ignore : Bool) (record : Cluster.Record) :
    (assembleCluster ignore record).Only P := (assembleCluster_fetches ignore record).imp hP

namespace Products

theorem create_asks (hcreate : ∀ draft, P (.createProduct draft)) (draft : Product.Draft) :
    (create draft).Asks P := by
  apply asks_guarded
  refine only_bind (only_ask (hP _ rfl)) fun _ => ?_
  refine only_bind (only_refuseIf _ _) fun _ => ?_
  exact only_ask (hcreate _)

theorem update_asks (hupdate : ∀ p, P (.updateProduct p)) (name : String)
    (change : Product.Change) : (update name change).Asks P := by
  apply asks_guarded
  refine only_bind (requireProduct_asks hP name) fun _ => ?_
  refine only_bind (only_refuseIf _ _) fun _ => ?_
  exact only_bind (only_ask (hupdate _)) fun _ => only_pure _

theorem delete_asks (hrules : ∀ id, P (.deleteRouteRules id)) (hdelete : ∀ id, P (.deleteProduct id))
    (name : String) : (delete name).Asks P := by
  refine only_bind (requireProduct_asks hP name) fun product => ?_
  refine only_bind (only_refuseIf _ _) fun _ => ?_
  refine only_bind (only_ask (hP _ rfl)) fun clusters => ?_
  refine only_bind (only_ask (hP _ rfl)) fun subClusters => ?_
  refine only_bind (only_ask (hP _ rfl)) fun pools => ?_
  refine only_bind (only_ask (hP _ rfl)) fun domains => ?_
  split
  · exact only_fail _
  · exact only_bind (only_ask (hrules _)) fun _ => only_ask (hdelete _)

end Products

namespace Pools

theorem requireOwned_asks (p : Product) (name : String) : (requireOwned p name).Only P := by
  refine only_bind (only_ofExcept _) fun full => ?_
  refine only_bind ((requirePool_fetches full).imp hP) fun pool => ?_
  exact only_bind (only_refuseIf _ _) fun _ => only_pure _

theorem references_asks (pool : Pool) : (references pool).Only P :=
  only_bind (only_ask (hP _ rfl)) fun _ => only_bind (only_ask (hP _ rfl)) fun _ => only_pure _

theorem create_asks (hcreate : ∀ draft, P (.createPool draft)) (product : String)
    (proposal : Pool.Proposal) : (create product proposal).Asks P := by
  apply asks_guarded
  refine only_bind (requireProduct_asks hP product) fun owner => ?_
  refine only_bind (only_ofExcept _) fun name => ?_
  split
  · exact only_fail _
  · refine only_bind (only_ask (hP _ rfl)) fun _ => ?_
    exact only_bind (only_refuseIf _ _) fun _ => only_ask (hcreate _)

theorem updateInstances_asks (hupdate : ∀ id instances, P (.updatePoolInstances id instances))
    (product pool : String) (instances : List Instance) :
    (updateInstances product pool instances).Asks P := by
  apply asks_guarded
  refine only_bind (requireProduct_asks hP product) fun owner => ?_
  refine only_bind (requireOwned_asks hP owner pool) fun _ => ?_
  exact only_bind (only_ask (hupdate _ _)) fun _ => only_pure _

theorem delete_asks (hdelete : ∀ id, P (.deletePool id)) (product pool : String) :
    (delete product pool).Asks P := by
  refine only_bind (requireProduct_asks hP product) fun owner => ?_
  refine only_bind (requireOwned_asks hP owner pool) fun owned => ?_
  refine only_bind (references_asks hP owned) fun users => ?_
  exact only_bind (only_refuseIf _ _) fun _ => only_ask (hdelete _)

theorem deletable_asks (product pool : String) : (deletable product pool).Asks P := by
  refine only_bind (requireProduct_asks hP product) fun owner => ?_
  refine only_bind (requireOwned_asks hP owner pool) fun owned => ?_
  exact only_bind (references_asks hP owned) fun users => only_pure _

end Pools

namespace BfeClusters

section

variable (hput : ∀ cluster product matrix, P (.putLoadMatrix cluster product matrix))

include hput

theorem extendMatrix_asks (bfe : String) (c : Cluster.Record) : (extendMatrix bfe c).Only P := by
  refine only_bind (only_ask (hP _ rfl)) fun bound => ?_
  refine only_bind (only_ask (hP _ rfl)) fun stored => ?_
  exact only_ask (hput _ _ _)

theorem shrinkMatrix_asks (bfe : String) (c : Cluster.Record) : (shrinkMatrix bfe c).Only P := by
  refine only_bind (only_ask (hP _ rfl)) fun stored => ?_
  split
  · exact only_done _
  · split
    · exact only_ask (hput _ _ _)
    · exact only_done _

theorem create_asks (hcreate : ∀ draft, P (.createBfeCluster draft))
    (proposal : BfeCluster.Proposal) : (create proposal).Asks P := by
  apply asks_guarded
  refine only_bind (only_ask (hP _ rfl)) fun _ => ?_
  refine only_bind (only_refuseIf _ _) fun _ => ?_
  refine only_bind ((requirePool_fetches _).imp hP) fun _ => ?_
  refine only_bind (only_refuseIf _ _) fun _ => ?_
  refine only_bind (only_ask (hcreate _)) fun bfe => ?_
  refine only_bind (only_ask (hP _ rfl)) fun clusters => ?_
  exact only_bind (only_forAll (extendMatrix_asks hP hput bfe.name) clusters) fun _ => only_pure _

theorem delete_asks (hdelete : ∀ id, P (.deleteBfeCluster id)) (name : String) :
    (delete name).Asks P := by
  refine only_bind (only_ask (hP _ rfl)) fun _ => ?_
  refine only_bind (only_require _ _) fun bfe => ?_
  refine only_bind (only_ask (hP _ rfl)) fun clusters => ?_
  refine only_bind (only_forAll (shrinkMatrix_asks hP hput bfe.name) clusters) fun _ => ?_
  exact only_ask (hdelete _)

end
end BfeClusters

namespace SubClusters

theorem requireBindablePool_asks (p : Product) (name : String) :
    (requireBindablePool p name).Only P := by
  refine only_bind ((requirePool_fetches _).imp hP) fun _ => ?_
  exact only_bind (only_refuseIf _ _) fun _ => only_pure _

theorem newPool_asks (p : Product) (record : SubCluster.Record) (name : Option String) :
    (newPool p record name).Only P := by
  cases name with
  | none => exact only_done _
  | some name =>
    refine only_bind (requireBindablePool_asks hP p name) fun pool => ?_
    split
    · exact only_pure _
    · split
      · exact only_fail _
      · exact only_pure _

theorem create_asks (hcreate : ∀ draft, P (.createSubCluster draft)) (product : String)
    (proposal : SubCluster.Proposal) : (create product proposal).Asks P := by
  apply asks_guarded
  refine only_bind (requireProduct_asks hP product) fun owner => ?_
  refine only_bind (only_ask (hP _ rfl)) fun _ => ?_
  refine only_bind (only_refuseIf _ _) fun _ => ?_
  refine only_bind (requireBindablePool_asks hP owner _) fun pool => ?_
  exact only_bind (only_ask (hcreate _)) fun _ => only_pure _

theorem resolveOne_asks (record : SubCluster.Record) : (resolveOne record).Only P :=
  only_bind (only_ask (hP _ rfl)) fun _ => only_ofExcept _

theorem update_asks (hupdate : ∀ id revision, P (.updateSubCluster id revision))
    (product name : String) (change : SubCluster.Change) : (update product name change).Asks P := by
  apply asks_guarded
  refine only_bind (requireProduct_asks hP product) fun owner => ?_
  refine only_bind ((requireSubCluster_fetches owner name).imp hP) fun record => ?_
  refine only_bind (newPool_asks hP owner record _) fun pool => ?_
  refine only_bind (only_ask (hupdate _ _)) fun _ => ?_
  refine only_bind ((requireSubCluster_fetches owner name).imp hP) fun updated => ?_
  exact resolveOne_asks hP updated

theorem delete_asks (hdelete : ∀ id, P (.deleteSubCluster id)) (product name : String) :
    (delete product name).Asks P := by
  refine only_bind (requireProduct_asks hP product) fun owner => ?_
  refine only_bind ((requireSubCluster_fetches owner name).imp hP) fun record => ?_
  split
  · exact only_fail _
  · exact only_ask (hdelete _)

theorem fetch_asks (product name : String) : (fetch product name).Asks P := by
  refine only_bind (requireProduct_asks hP product) fun owner => ?_
  refine only_bind ((requireSubCluster_fetches owner name).imp hP) fun record => ?_
  exact resolveOne_asks hP record

theorem fetchAll_asks (product : String) : (fetchAll product).Asks P := by
  refine only_bind (requireProduct_asks hP product) fun owner => ?_
  refine only_bind (only_ask (hP _ rfl)) fun records => ?_
  exact (resolveSubClusters_fetches records).imp hP

end SubClusters

namespace Clusters

theorem requireBindable_asks (ignore : Bool) (p : Product) (names : List String) :
    (requireBindable ignore p names).Only P := by
  cases names with
  | nil => exact only_done _
  | cons n names =>
    refine only_bind (only_ask (hP _ rfl)) fun records => ?_
    split
    · exact only_fail _
    · refine only_bind ((resolveSubClusters_fetches records).imp hP) fun subClusters => ?_
      split
      · exact only_fail _
      · exact only_pure _

theorem replaceMatrix_asks (p : Product) (record : Cluster.Record) (matrix : LoadMatrix)
    (hput : P (.putLoadMatrix record.id p.id matrix)) : (replaceMatrix p record matrix).Only P := by
  refine only_bind (only_ask (hP _ rfl)) fun bound => ?_
  refine only_bind (bfeClusterNames_fetches.imp hP) fun bfes => ?_
  refine only_bind (only_ofExcept _) fun _ => ?_
  exact only_ask hput

theorem updateLocked_asks (ignore : Bool) (change : Cluster.Change) (p : Product)
    (record : Cluster.Record) (hput : ∀ matrix, P (.putLoadMatrix record.id p.id matrix))
    (hupdate : ∀ record, P (.updateCluster record)) :
    (updateLocked ignore change p record).Only P := by
  have hstore : (do ask (.updateCluster (change.apply record))
                    assembleCluster ignore (change.apply record)).Only P :=
    only_bind (only_ask (hupdate _)) fun _ => assembleCluster_asks hP ignore _
  unfold updateLocked
  dsimp only
  split
  · exact only_bind (replaceMatrix_asks hP p _ _ (hput _)) fun _ => hstore
  · exact only_bind (only_done _) fun _ => hstore

theorem rebindLocked_asks (ignore : Bool) (target : List String) (p : Product)
    (record : Cluster.Record) (hput : ∀ matrix, P (.putLoadMatrix record.id p.id matrix))
    (hbind : ∀ id ids, P (.bindSubClusters id ids)) (hunbind : ∀ ids, P (.unbindSubClusters ids)) :
    (rebindLocked ignore target p record).Only P := by
  refine only_bind (only_ask (hP _ rfl)) fun current => ?_
  refine only_bind (requireBindable_asks hP ignore p _) fun added => ?_
  refine only_bind (only_ask (hP _ rfl)) fun stored => ?_
  refine only_bind (only_require _ _) fun matrix => ?_
  refine only_bind (only_ofExcept _) fun rebound => ?_
  refine only_bind (bfeClusterNames_fetches.imp hP) fun bfes => ?_
  refine only_bind (only_ofExcept _) fun _ => ?_
  refine only_bind (only_ask (hunbind _)) fun _ => ?_
  refine only_bind (only_ask (hbind _ _)) fun _ => ?_
  refine only_bind (only_ask (hput _)) fun _ => ?_
  exact assembleCluster_asks hP ignore record

theorem consult_asks (p : Product) (c : Cluster) :
    (consult p c [routeRuleChecker]).Only P := by
  have hcheck : (routeRuleChecker.check p c).Only P :=
    only_bind ((clusterInRules_fetches p c.id).imp hP) fun _ => only_pure _
  refine only_bind hcheck fun veto => ?_
  split
  · exact only_fail _
  · exact only_done _

section

variable (hput : ∀ cluster product matrix, P (.putLoadMatrix cluster product matrix))
  (hlock : ∀ id, P (.lockCluster id)) (hbind : ∀ id ids, P (.bindSubClusters id ids))
  (hunbind : ∀ ids, P (.unbindSubClusters ids))

include hput hbind in
theorem create_asks (hcreate : ∀ draft, P (.createCluster draft)) (ignore : Bool)
    (product : String) (proposal : Cluster.Proposal) : (create ignore product proposal).Asks P := by
  apply asks_guarded
  apply asks_guarded
  apply asks_guarded
  apply asks_guarded
  refine only_bind (requireProduct_asks hP product) fun owner => ?_
  refine only_bind (only_ask (hP _ rfl)) fun _ => ?_
  refine only_bind (only_refuseIf _ _) fun _ => ?_
  refine only_bind (requireBindable_asks hP ignore owner _) fun subClusters => ?_
  refine only_bind (bfeClusterNames_fetches.imp hP) fun bfes => ?_
  refine only_bind (only_ofExcept _) fun _ => ?_
  refine only_bind (only_ask (hcreate _)) fun record => ?_
  refine only_bind (only_ask (hbind _ _)) fun _ => ?_
  refine only_bind (only_ask (hput _ _ _)) fun _ => ?_
  exact assembleCluster_asks hP ignore record

include hput hlock in
theorem update_asks (hupdate : ∀ record, P (.updateCluster record)) (ignore : Bool)
    (product cluster : String) (change : Cluster.Change) :
    (update ignore product cluster change).Asks P := by
  rw [update_eq]
  apply asks_guarded
  apply asks_guarded
  refine only_bind (requireProduct_asks hP product) fun owner => ?_
  refine only_bind (requireLockedCluster_asks hP hlock owner cluster) fun record => ?_
  exact updateLocked_asks hP ignore change owner record (fun _ => hput _ _ _) hupdate

include hput hlock hbind hunbind in
theorem rebind_asks (ignore : Bool) (product cluster : String) (target : List String) :
    (rebind ignore product cluster target).Asks P := by
  rw [rebind_eq]
  apply asks_guarded
  refine only_bind (requireProduct_asks hP product) fun owner => ?_
  refine only_bind (requireLockedCluster_asks hP hlock owner cluster) fun record => ?_
  exact rebindLocked_asks hP ignore target owner record (fun _ => hput _ _ _) hbind hunbind

include hlock hunbind in
theorem delete_asks (hmatrix : ∀ id, P (.deleteLoadMatrix id)) (hdelete : ∀ id, P (.deleteCluster id))
    (ignore : Bool) (product cluster : String) :
    (delete ignore [routeRuleChecker] product cluster).Asks P := by
  refine only_bind (requireProduct_asks hP product) fun owner => ?_
  refine only_bind (requireLockedCluster_asks hP hlock owner cluster) fun record => ?_
  refine only_bind (assembleCluster_asks hP ignore record) fun assembled => ?_
  refine only_bind (consult_asks hP owner assembled) fun _ => ?_
  refine only_bind (only_ask (hunbind _)) fun _ => ?_
  exact only_bind (only_ask (hmatrix _)) fun _ => only_ask (hdelete _)

end

theorem fetch_asks (ignore : Bool) (product cluster : String) :
    (fetch ignore product cluster).Asks P := by
  refine only_bind (requireProduct_asks hP product) fun owner => ?_
  refine only_bind ((requireCluster_fetches owner cluster).imp hP) fun record => ?_
  exact assembleCluster_asks hP ignore record

theorem fetchAll_asks (ignore : Bool) (product : String) : (fetchAll ignore product).Asks P := by
  refine only_bind (requireProduct_asks hP product) fun owner => ?_
  refine only_bind (only_ask (hP _ rfl)) fun records => ?_
  exact only_forAll (assembleCluster_asks hP ignore) records

end Clusters

namespace Domains

theorem create_asks (hcreate : ∀ draft, P (.createDomain draft)) (product : String)
    (proposal : Domain.Proposal) : (create product proposal).Asks P := by
  apply asks_guarded
  refine only_bind (requireProduct_asks hP product) fun owner => ?_
  refine only_bind (only_ask (hP _ rfl)) fun existing => ?_
  split
  · exact only_fail _
  · exact only_ask (hcreate _)

theorem delete_asks (hdelete : ∀ id, P (.deleteDomain id)) (product domain : String) :
    (delete product domain).Asks P := by
  refine only_bind (requireProduct_asks hP product) fun owner => ?_
  refine only_bind (only_ask (hP _ rfl)) fun found => ?_
  refine only_bind (only_require _ _) fun d => ?_
  refine only_bind (only_refuseIf _ _) fun _ => ?_
  refine only_bind ((hostInRules_fetches d.name).imp hP) fun _ => ?_
  exact only_bind (only_refuseIf _ _) fun _ => only_ask (hdelete _)

end Domains

namespace Routes

theorem resolve_asks (ignore : Bool) (p : Product) (name : String) (known : Resolved) :
    (resolve ignore p name known).Only P := by
  rw [resolve]
  split
  · exact only_done _
  · refine only_bind ((requireCluster_fetches p name).imp hP) fun record => ?_
    refine only_bind (assembleCluster_asks hP ignore record) fun cluster => ?_
    exact only_bind (only_refuseIf _ _) fun _ => only_pure _

theorem resolveBasic_asks (ignore : Bool) (p : Product) (rules : List BasicRule)
    (known : Resolved) : (resolveBasic ignore p rules known).Only P := by
  induction rules generalizing known with
  | nil => exact only_done _
  | cons r rules ih =>
    rw [resolveBasic]
    split
    · exact only_bind (ih known) fun _ => only_pure _
    · refine only_bind (resolve_asks hP ignore p r.clusterName known) fun resolved => ?_
      exact only_bind (ih resolved.2) fun _ => only_pure _

theorem resolveAdvanced_asks (ignore : Bool) (p : Product) (rules : List AdvancedRule)
    (known : Resolved) : (resolveAdvanced ignore p rules known).Only P := by
  induction rules generalizing known with
  | nil => exact only_done _
  | cons r rules ih =>
    refine only_bind (resolve_asks hP ignore p r.clusterName known) fun resolved => ?_
    exact only_bind (ih resolved.2) fun _ => only_pure _

theorem replace_asks (hlock : ∀ id, P (.lockAdvancedRules id))
    (hdelete : ∀ id, P (.deleteRouteRules id)) (hcreate : ∀ id rules, P (.createRouteRules id rules))
    (ignore : Bool) (product : String) (rules : RouteRules) :
    (replace ignore product rules).Asks P := by
  apply asks_guarded
  refine only_bind (requireProduct_asks hP product) fun owner => ?_
  refine only_bind (only_ask (hlock _)) fun _ => ?_
  refine only_bind (only_ask (hP _ rfl)) fun domains => ?_
  split
  · exact only_fail _
  · refine only_bind (resolveBasic_asks hP ignore owner _ _) fun basic => ?_
    refine only_bind (resolveAdvanced_asks hP ignore owner _ _) fun advanced => ?_
    refine only_bind (only_ask (hdelete _)) fun _ => ?_
    exact only_bind (only_ask (hcreate _ _)) fun _ => only_pure _

theorem fetch_asks (product : String) : (fetch product).Asks P := by
  refine only_bind (requireProduct_asks hP product) fun owner => ?_
  exact only_bind (only_ask (hP _ rfl)) fun rules => only_pure _

theorem clusterReferenced_asks (product cluster : String) :
    (clusterReferenced product cluster).Asks P := by
  refine only_bind (requireProduct_asks hP product) fun owner => ?_
  refine only_bind ((requireCluster_fetches owner cluster).imp hP) fun record => ?_
  exact (clusterInRules_fetches owner record.id).imp hP

end Routes

namespace Certificates

theorem create_asks (hcreate : ∀ draft, P (.createCertificate draft))
    (hdefault : ∀ id, P (.setDefaultCertificate id)) (draft : Certificate.Draft) :
    (create draft).Asks P := by
  apply asks_guarded
  refine only_bind (only_ask (hP _ rfl)) fun _ => ?_
  refine only_bind (only_refuseIf _ _) fun _ => ?_
  refine only_bind (only_ask (hP _ rfl)) fun all => ?_
  refine only_bind (only_ask (hcreate _)) fun certificate => ?_
  split
  · exact only_bind (only_ask (hdefault _)) fun _ => only_pure _
  · exact only_pure _

theorem setDefault_asks (hdefault : ∀ id, P (.setDefaultCertificate id)) (name : String) :
    (setDefault name).Asks P := by
  refine only_bind ((requireCertificate_fetches name).imp hP) fun certificate => ?_
  exact only_bind (only_ask (hdefault _)) fun _ => only_pure _

theorem delete_asks (hdelete : ∀ id, P (.deleteCertificate id)) (name : String) :
    (delete name).Asks P := by
  refine only_bind ((requireCertificate_fetches name).imp hP) fun certificate => ?_
  refine only_bind (only_ask (hP _ rfl)) fun all => ?_
  exact only_bind (only_refuseIf _ _) fun _ => only_ask (hdelete _)

end Certificates
end FleetControl.Control

namespace FleetControl.Call

open Control Store Store.Work

variable {P : Request → Prop}

def putsMatrix : Call → Bool
  | createBfeCluster _ | deleteBfeCluster _ | createCluster .. | updateCluster ..
  | rebindSubClusters .. => true
  | _ => false

def concernsLedger : Call → Bool
  | exportTopic .. | latestVersion _ | versionHistory _ => true
  | _ => false

/-- Every other call keeps to the fleet, and puts no matrix unless it is one of those that do. -/
theorem operation_asks (settings : ControlSettings) (now : Instant) {c : Call}
    (hc : c.concernsLedger = false)
    (hP : ∀ r, r.fleet = true → (r.putsMatrix = true → c.putsMatrix = true) → P r) :
    (c.operation settings now).Asks P := by
  have hread : AllowsReads P := by
    intro r hr
    refine hP r (allowsReads_fleet r hr) fun hput => ?_
    rw [allowsReads_keeping r hr] at hput
    cases hput
  have hwrite (r : Request) (hfleet : r.fleet = true) (hkeeps : r.putsMatrix = false) : P r := by
    refine hP r hfleet fun hput => ?_
    rw [hkeeps] at hput
    cases hput
  have hlock (id : ClusterId) : P (.lockCluster id) := hwrite _ rfl rfl
  have hbind (id : ClusterId) (ids : List SubClusterId) : P (.bindSubClusters id ids) :=
    hwrite _ rfl rfl
  have hunbind (ids : List SubClusterId) : P (.unbindSubClusters ids) := hwrite _ rfl rfl
  have hrules (id : ProductId) : P (.deleteRouteRules id) := hwrite _ rfl rfl
  have hdefault (id : CertificateId) : P (.setDefaultCertificate id) := hwrite _ rfl rfl
  cases c with
  | createProduct draft => exact Products.create_asks hread (fun _ => hwrite _ rfl rfl) draft
  | updateProduct name change =>
    exact Products.update_asks hread (fun _ => hwrite _ rfl rfl) name change
  | deleteProduct name =>
    exact Products.delete_asks hread hrules (fun _ => hwrite _ rfl rfl) name
  | fetchProduct name => exact requireProduct_asks hread name
  | createBfeCluster proposal =>
    exact BfeClusters.create_asks hread (fun _ _ _ => hP _ rfl fun _ => rfl)
      (fun _ => hwrite _ rfl rfl) proposal
  | deleteBfeCluster name =>
    exact BfeClusters.delete_asks hread (fun _ _ _ => hP _ rfl fun _ => rfl)
      (fun _ => hwrite _ rfl rfl) name
  | createPool product proposal =>
    exact Pools.create_asks hread (fun _ => hwrite _ rfl rfl) product proposal
  | updatePoolInstances product pool instances =>
    exact Pools.updateInstances_asks hread (fun _ _ => hwrite _ rfl rfl) product pool instances
  | deletePool product pool =>
    exact Pools.delete_asks hread (fun _ => hwrite _ rfl rfl) product pool
  | poolDeletable product pool => exact Pools.deletable_asks hread product pool
  | fetchPool product pool =>
    exact only_bind (requireProduct_asks hread product) fun p => Pools.requireOwned_asks hread p pool
  | fetchPools product =>
    exact only_bind (requireProduct_asks hread product) fun p => only_ask (hread _ rfl)
  | createSubCluster product proposal =>
    exact SubClusters.create_asks hread (fun _ => hwrite _ rfl rfl) product proposal
  | updateSubCluster product name change =>
    exact SubClusters.update_asks hread (fun _ _ => hwrite _ rfl rfl) product name change
  | deleteSubCluster product name =>
    exact SubClusters.delete_asks hread (fun _ => hwrite _ rfl rfl) product name
  | fetchSubCluster product name => exact SubClusters.fetch_asks hread product name
  | fetchSubClusters product => exact SubClusters.fetchAll_asks hread product
  | createCluster product proposal =>
    exact Clusters.create_asks hread (fun _ _ _ => hP _ rfl fun _ => rfl) hbind
      (fun _ => hwrite _ rfl rfl) _ product proposal
  | updateCluster product cluster change =>
    exact Clusters.update_asks hread (fun _ _ _ => hP _ rfl fun _ => rfl) hlock
      (fun _ => hwrite _ rfl rfl) _ product cluster change
  | rebindSubClusters product cluster names =>
    exact Clusters.rebind_asks hread (fun _ _ _ => hP _ rfl fun _ => rfl) hlock hbind hunbind _
      product cluster names
  | deleteCluster product cluster =>
    exact Clusters.delete_asks hread hlock hunbind (fun _ => hwrite _ rfl rfl)
      (fun _ => hwrite _ rfl rfl) _ product cluster
  | fetchCluster product cluster => exact Clusters.fetch_asks hread _ product cluster
  | fetchClusters product => exact Clusters.fetchAll_asks hread _ product
  | createDomain product proposal =>
    exact Domains.create_asks hread (fun _ => hwrite _ rfl rfl) product proposal
  | deleteDomain product name =>
    exact Domains.delete_asks hread (fun _ => hwrite _ rfl rfl) product name
  | fetchDomains product =>
    exact only_bind (requireProduct_asks hread product) fun p => only_ask (hread _ rfl)
  | replaceRules product rules =>
    exact Routes.replace_asks hread (fun _ => hwrite _ rfl rfl) hrules
      (fun _ _ => hwrite _ rfl rfl) _ product rules
  | fetchRules product => exact Routes.fetch_asks hread product
  | clusterReferenced product cluster => exact Routes.clusterReferenced_asks hread product cluster
  | domainReferenced host => exact (hostInRules_fetches host).imp hread
  | createCertificate draft =>
    exact Certificates.create_asks hread (fun _ => hwrite _ rfl rfl) hdefault draft
  | setDefaultCertificate name => exact Certificates.setDefault_asks hread hdefault name
  | deleteCertificate name =>
    exact Certificates.delete_asks hread (fun _ => hwrite _ rfl rfl) name
  | fetchProducts | fetchBfeClusters | fetchCertificates => exact only_ask (hread _ rfl)
  | exportTopic | latestVersion | versionHistory => cases hc

theorem operation_fleet (settings : ControlSettings) (now : Instant) (c : Call)
    (h : ∀ topic last, c ≠ .exportTopic topic last) :
    (c.operation settings now).Commits (·.fleet = true) := by
  cases hc : c.concernsLedger with
  | false => exact (operation_asks settings now hc fun _ hfleet _ => hfleet).commits
  | true =>
    cases c with
    | exportTopic topic last => exact absurd rfl (h topic last)
    | latestVersion | versionHistory => trivial
    | _ => cases hc

end FleetControl.Call
