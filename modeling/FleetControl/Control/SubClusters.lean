import FleetControl.Control.Lookup

/-!
Management of sub-clusters. A mounted sub-cluster keeps its pool and cannot be deleted.
-/

namespace FleetControl.Control.SubClusters

open Store Work

/-- A pool of the product itself or one of the load balancer's; a name without a dot is the
product's own. -/
def requireBindablePool (product : Product) (poolName : String) : Work Pool := do
  let name := if poolName.toList.contains '.' then poolName else product.name ++ "." ++ poolName
  let pool ← requirePool name
  refuseIf (.onField ("Pool '" ++ pool.name ++ "' belongs to another product") "pool_name")
    (pool.productId ≠ product.id && !pool.isInfrastructure)
  return pool

def create (productName : String) (proposal : SubCluster.Proposal) : Operation SubCluster :=
  .guarded proposal.findings.refusal? <| .update do
    let product ← requireProduct productName
    let same ← ask (.fetchSubClusters
      { productId := some product.id, names := some [proposal.name] })
    refuseIf (.alreadyExists "SubCluster" proposal.name) !same.isEmpty
    let pool ← requireBindablePool product proposal.poolName
    let record ← ask (.createSubCluster
      ⟨proposal.name, product.id, proposal.description, pool.id⟩)
    return .ofRecord record pool

def mountedFault (r : SubCluster.Record) (cluster : ClusterId) (consequence : String) : Fault :=
  .modelViolation ("Sub cluster '" ++ r.name ++ "' is mounted to cluster " ++ cluster.text ++
    consequence)

def newPool (product : Product) (record : SubCluster.Record) :
    Option String → Work (Option PoolId)
  | none => .done none
  | some poolName => do
    let pool ← requireBindablePool product poolName
    if pool.id = record.poolId then return none
    else
      match record.clusterId with
      | some cluster =>
        .fail (mountedFault record cluster "; unbind it before changing its pool")
      | none => return some pool.id

def resolveOne (record : SubCluster.Record) : Work SubCluster := do
  let pools ← ask (.fetchPools { ids := some [record.poolId] })
  ofExcept (attachPool pools record)

def update (productName name : String) (change : SubCluster.Change) : Operation SubCluster :=
  .guarded change.findings.refusal? <| .update do
    let product ← requireProduct productName
    let record ← requireSubCluster product name
    let pool ← newPool product record change.poolName
    ask (.updateSubCluster record.id ⟨pool, change.description⟩)
    let updated ← requireSubCluster product name
    resolveOne updated

def delete (productName name : String) : Operation Unit :=
  .update do
    let product ← requireProduct productName
    let record ← requireSubCluster product name
    match record.clusterId with
    | some cluster => .fail (mountedFault record cluster " and cannot be deleted")
    | none => ask (.deleteSubCluster record.id)

def fetch (productName name : String) : Operation SubCluster :=
  .query do
    let product ← requireProduct productName
    let record ← requireSubCluster product name
    resolveOne record

def fetchAll (productName : String) : Operation (List SubCluster) :=
  .query do
    let product ← requireProduct productName
    let records ← ask (.fetchSubClusters { productId := some product.id })
    resolveSubClusters records

end FleetControl.Control.SubClusters
