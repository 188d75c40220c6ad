import FleetControl.Control.Lookup

/-!
Management of pools. A pool can be deleted once no BFE cluster and no sub-cluster uses it.
-/

namespace FleetControl.Control.Pools

open Store Work

def instancesRefusal? (instances : List Instance) : Option Fault :=
  (instances.findSome? Instance.defect?).map Instance.Defect.fault

def qualified (owner : Product) (name : String) : Work String :=
  ofExcept ((Pool.qualify owner.name name).mapError Pool.NameDefect.fault)

def tagFor (owner : Product) : PoolTag := if owner.isBuiltin then .bfe else .product

def create (productName : String) (proposal : Pool.Proposal) : Operation Pool :=
  .guarded proposal.findings.refusal? <| .update do
    let product ← requireProduct productName
    let name ← qualified product proposal.name
    match instancesRefusal? proposal.instances with
    | some f => .fail f
    | none =>
      let same ← ask (.fetchPools { name := some name })
      refuseIf (.alreadyExists "Pool" name) !same.isEmpty
      ask (.createPool ⟨name, product.id, tagFor product, proposal.poolType, proposal.instances⟩)

def requireOwned (product : Product) (poolName : String) : Work Pool := do
  let name ← qualified product poolName
  let pool ← requirePool name
  refuseIf (.notExist "Pool" name) (pool.productId ≠ product.id)
  return pool

def updateInstances (productName poolName : String) (instances : List Instance) : Operation Pool :=
  .guarded (instancesRefusal? instances) <| .update do
    let product ← requireProduct productName
    let pool ← requireOwned product poolName
    ask (.updatePoolInstances pool.id instances)
    return { pool with instances := instances }

def references (pool : Pool) : Work (List String) := do
  let bfes ← ask (.fetchBfeClusters { poolId := some pool.id })
  let subClusters ← ask (.fetchSubClusters { poolId := some pool.id })
  return bfes.map (fun b => "BFE cluster '" ++ b.name ++ "'") ++
    subClusters.map fun s => "sub cluster '" ++ s.name ++ "'"

def stillReferenced (pool : Pool) (references : List String) : Fault :=
  .modelViolation ("Pool '" ++ pool.name ++ "' is still referenced by " ++
    Text.joinWith ", " references)

def delete (productName poolName : String) : Operation Unit :=
  .update do
    let product ← requireProduct productName
    let pool ← requireOwned product poolName
    let users ← references pool
    refuseIf (stillReferenced pool users) !users.isEmpty
    ask (.deletePool pool.id)

def deletable (productName poolName : String) : Operation Bool :=
  .query do
    let product ← requireProduct productName
    let pool ← requireOwned product poolName
    let users ← references pool
    return users.isEmpty

def fetch (productName poolName : String) : Operation Pool :=
  .query do
    let product ← requireProduct productName
    requireOwned product poolName

def fetchAll (productName : String) : Operation (List Pool) :=
  .query do
    let product ← requireProduct productName
    ask (.fetchPools { productId := some product.id })

end FleetControl.Control.Pools
