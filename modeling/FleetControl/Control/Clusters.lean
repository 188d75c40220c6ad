import FleetControl.Control.Lookup

/-!
Management of clusters: their policies, the sub-clusters mounted on them and the load matrix between
these. Whatever a request changes is checked before the first write.
-/

namespace FleetControl.Control

open Store Work

/-- Something that may forbid the deletion of a cluster, asked inside the deleting unit of work. -/
structure DeleteChecker where
  name : String
  check : Product → Cluster → Work (Option String)

def routeRuleChecker : DeleteChecker where
  name := "route_rule"
  check product cluster := do
    let referenced ← clusterInRules product cluster.id
    return if referenced then
      some ("still referenced by route rules of product '" ++ product.name ++ "'")
    else none

namespace Clusters

def duplicate? : (seen : List String) → List String → Option String
  | _, [] => none
  | seen, n :: rest => if seen.contains n then some n else duplicate? (n :: seen) rest

def namesRefusal? (names : List String) : Option Fault :=
  if names.isEmpty then some (.modelViolation "A cluster must have at least one sub cluster")
  else
    (duplicate? [] names).map fun n =>
      .onField ("Sub cluster '" ++ n ++ "' is listed more than once") "sub_clusters"

def reservedRefusal? (name : String) : Option Fault :=
  if Cluster.isReservedName name then
    some (.onField ("Cluster name '" ++ name ++ "' is reserved") "name")
  else none

def alreadyMounted (s : SubCluster) (cluster : ClusterId) : Fault :=
  .modelViolation ("Sub cluster '" ++ s.name ++ "' is already mounted to cluster " ++ cluster.text)

def notReady (s : SubCluster) : Fault :=
  .dependentUnready ("Sub cluster '" ++ s.name ++ "' is not ready: pool '" ++ s.pool.name ++
    "' has no routable instance")

def bindingRefusal? (ignoreReadiness : Bool) (s : SubCluster) : Option Fault :=
  match s.clusterId with
  | some cluster => some (alreadyMounted s cluster)
  | none => if !ignoreReadiness && !s.ready then some (notReady s) else none

def requireBindable (ignoreReadiness : Bool) (product : Product) (names : List String) :
    Work (List SubCluster) :=
  match names with
  | [] => .done []
  | _ => do
    let records ← ask (.fetchSubClusters { productId := some product.id, names := some names })
    match names.find? fun n => !records.any (·.name = n) with
    | some missing => .fail (.notExist "SubCluster" missing)
    | none =>
      let subClusters ← resolveSubClusters records
      match subClusters.findSome? (bindingRefusal? ignoreReadiness) with
      | some f => .fail f
      | none => return subClusters

def checkMatrix (m : LoadMatrix) (bfes subClusters : List String) : Work Unit :=
  ofExcept ((m.check bfes subClusters).mapError LoadMatrix.Defect.fault)

def create (ignoreReadiness : Bool) (productName : String) (proposal : Cluster.Proposal) :
    Operation Cluster :=
  .guarded proposal.findings.refusal? <|
  .guarded (reservedRefusal? proposal.name) <|
  .guarded proposal.stickySessions.refusal? <|
  .guarded (namesRefusal? proposal.subClusters) <| .update do
    let product ← requireProduct productName
    let same ← ask (.fetchClusters { name := some proposal.name })
    refuseIf (.alreadyExists "Cluster" proposal.name) !same.isEmpty
    let subClusters ← requireBindable ignoreReadiness product proposal.subClusters
    let bfes ← bfeClusterNames
    let scheduler := proposal.scheduler.getD (LoadMatrix.defaultFor bfes proposal.subClusters)
    checkMatrix scheduler bfes proposal.subClusters
    let record ← ask (.createCluster ⟨proposal.name, product.id, proposal.description,
      proposal.basic, proposal.stickySessions, proposal.passiveHealthCheck⟩)
    ask (.bindSubClusters record.id (subClusters.map (·.id)))
    ask (.putLoadMatrix record.id product.id scheduler)
    assembleCluster ignoreReadiness record

def replaceMatrix (product : Product) (record : Cluster.Record) (matrix : LoadMatrix) :
    Work Unit := do
  let bound ← boundSubClusters record.id
  let bfes ← bfeClusterNames
  checkMatrix matrix bfes (bound.map (·.name))
  ask (.putLoadMatrix record.id product.id matrix)

def update (ignoreReadiness : Bool) (productName clusterName : String) (change : Cluster.Change) :
    Operation Cluster :=
  .guarded change.findings.refusal? <|
  .guarded (change.stickySessions.bind StickySessions.refusal?) <| .update do
    let product ← requireProduct productName
    let record ← requireLockedCluster product clusterName
    let changed := change.apply record
    match change.scheduler with
    | some matrix => replaceMatrix product changed matrix
    | none => .done ()
    ask (.updateCluster changed)
    assembleCluster ignoreReadiness changed

def difference (a b : List String) : List String :=
  (LoadMatrix.nameSet a).filter fun n => !b.contains n

def noMatrix (record : Cluster.Record) : Fault :=
  .dirtyData ("Cluster '" ++ record.name ++ "' has no stored LB matrix")

/-- Replace the set of mounted sub-clusters. Those that leave must get no traffic any more, those
that join start without any. -/
def rebind (ignoreReadiness : Bool) (productName clusterName : String) (target : List String) :
    Operation Cluster :=
  .guarded (namesRefusal? target) <| .update do
    let product ← requireProduct productName
    let record ← requireLockedCluster product clusterName
    let current ← boundSubClusters record.id
    let removed := difference (current.map (·.name)) target
    let added := difference target (current.map (·.name))
    let addedSubClusters ← requireBindable ignoreReadiness product added
    let stored ← ask (.fetchLoadMatrix record.id)
    let matrix ← require (noMatrix record) stored
    let rebound ← ofExcept ((matrix.rebind removed added).mapError LoadMatrix.Undrained.fault)
    let bfes ← bfeClusterNames
    checkMatrix rebound bfes target
    ask (.unbindSubClusters ((current.filter fun s => removed.contains s.name).map (·.id)))
    ask (.bindSubClusters record.id (addedSubClusters.map (·.id)))
    ask (.putLoadMatrix record.id product.id rebound)
    assembleCluster ignoreReadiness record

def vetoFault (cluster : Cluster) (checker : DeleteChecker) (reason : String) : Fault :=
  .modelViolation ("Cluster '" ++ cluster.name ++ "' cannot be deleted (" ++ checker.name ++ "): " ++
    reason)

def consult (product : Product) (cluster : Cluster) : List DeleteChecker → Work Unit
  | [] => .done ()
  | checker :: rest => do
    match ← checker.check product cluster with
    | some reason => .fail (vetoFault cluster checker reason)
    | none => consult product cluster rest

def delete (ignoreReadiness : Bool) (checkers : List DeleteChecker)
    (productName clusterName : String) : Operation Unit :=
  .update do
    let product ← requireProduct productName
    let record ← requireLockedCluster product clusterName
    let cluster ← assembleCluster ignoreReadiness record
    consult product cluster checkers
    ask (.unbindSubClusters (cluster.subClusters.map (·.id)))
    ask (.deleteLoadMatrix cluster.id)
    ask (.deleteCluster cluster.id)

def fetch (ignoreReadiness : Bool) (productName clusterName : String) : Operation Cluster :=
  .query do
    let product ← requireProduct productName
    let record ← requireCluster product clusterName
    assembleCluster ignoreReadiness record

def fetchAll (ignoreReadiness : Bool) (productName : String) : Operation (List Cluster) :=
  .query do
    let product ← requireProduct productName
    let records ← ask (.fetchClusters { productId := some product.id })
    forAll (assembleCluster ignoreReadiness) records

end Clusters
end FleetControl.Control
