import FleetControl.Store.Work

/-!
Reads that several managers share, each inside the unit of work of its caller.
-/

namespace FleetControl.Control

open Store Work

def requireProduct (name : String) : Work Product := do
  let found ← ask (.fetchProducts { name := some name })
  require (.notExist "Product" name) found.head?

def requirePool (name : String) : Work Pool := do
  let found ← ask (.fetchPools { name := some name })
  require (.notExist "Pool" name) found.head?

def requireCluster (product : Product) (name : String) : Work Cluster.Record := do
  let found ← ask (.fetchClusters { name := some name, productId := some product.id })
  require (.notExist "Cluster" name) found.head?

/-- The cluster is read again under its lock, so that writers of its bindings and of its matrix take
turns. -/
def requireLockedCluster (product : Product) (name : String) : Work Cluster.Record := do
  let record ← requireCluster product name
  ask (.lockCluster record.id)
  let found ← ask (.fetchClusters { id := some record.id })
  require (.notExist "Cluster" name) found.head?

def requireSubCluster (product : Product) (name : String) : Work SubCluster.Record := do
  let found ← ask (.fetchSubClusters { productId := some product.id, names := some [name] })
  require (.notExist "SubCluster" name) found.head?

def requireCertificate (name : String) : Work Certificate := do
  let found ← ask (.fetchCertificates { name := some name })
  require (.notExist "Certificate" name) found.head?

def missingPool (r : SubCluster.Record) : Fault :=
  .dirtyData ("Sub cluster '" ++ r.name ++ "' references missing pool " ++ r.poolId.text)

def attachPool (pools : List Pool) (r : SubCluster.Record) : Except Fault SubCluster :=
  match (SortedMap.ofList (pools.map fun p => (p.id, p))).get? r.poolId with
  | some pool => .ok (.ofRecord r pool)
  | none => .error (missingPool r)

def resolveSubClusters (records : List SubCluster.Record) : Work (List SubCluster) :=
  match records with
  | [] => .done []
  | _ => do
    let pools ← ask (.fetchPools { ids := some (records.map (·.poolId)) })
    ofExcept (records.mapM (attachPool pools))

def boundSubClusters (cluster : ClusterId) : Work (List SubCluster.Record) :=
  ask (.fetchSubClusters { clusterId := some cluster })

def assembleCluster (ignoreReadiness : Bool) (record : Cluster.Record) : Work Cluster := do
  let records ← boundSubClusters record.id
  let subClusters ← resolveSubClusters records
  let scheduler ← ask (.fetchLoadMatrix record.id)
  return .assemble record subClusters scheduler ignoreReadiness

def bfeClusterNames : Work (List String) := do
  let bfes ← ask (.fetchBfeClusters {})
  return bfes.map (·.name)

def clusterInRules (product : Product) (cluster : ClusterId) : Work Bool := do
  let rules ← ask (.fetchRouteRules (some product.id))
  return (rules.get? product.id).any (·.referencesCluster cluster)

def hostInRules (host : String) : Work Bool := do
  let rules ← ask (.fetchRouteRules none)
  return rules.values.any (·.referencesHost host)

end FleetControl.Control
