import FleetControl.Control.Lookup

/-!
Management of BFE clusters. Every load matrix has a row for each of them, so creating or deleting one
changes all matrices in the same unit of work.
-/

namespace FleetControl.Control.BfeClusters

open Store Work

def extendMatrix (bfe : String) (cluster : Cluster.Record) : Work Unit := do
  let bound ← boundSubClusters cluster.id
  let stored ← ask (.fetchLoadMatrix cluster.id)
  let matrix := (stored.getD .empty).insertRow bfe (LoadMatrix.defaultRow (bound.map (·.name)))
  ask (.putLoadMatrix cluster.id cluster.productId matrix)

def shrinkMatrix (bfe : String) (cluster : Cluster.Record) : Work Unit := do
  let stored ← ask (.fetchLoadMatrix cluster.id)
  match stored with
  | none => .done ()
  | some matrix =>
    if (matrix.row? bfe).isSome then
      ask (.putLoadMatrix cluster.id cluster.productId (matrix.eraseRow bfe))
    else .done ()

def create (proposal : BfeCluster.Proposal) : Operation BfeCluster :=
  .guarded proposal.findings.refusal? <| .update do
    let same ← ask (.fetchBfeClusters { name := some proposal.name })
    refuseIf (.alreadyExists "BfeCluster" proposal.name) !same.isEmpty
    let pool ← requirePool proposal.poolName
    refuseIf (.onField ("Pool '" ++ pool.name ++ "' is not an infrastructure pool") "pool_name")
      !pool.isInfrastructure
    let bfe ← ask (.createBfeCluster ⟨proposal.name, pool.id, proposal.capacity, true⟩)
    let clusters ← ask (.fetchClusters {})
    let _ ← forAll (extendMatrix bfe.name) clusters
    return bfe

def delete (name : String) : Operation Unit :=
  .update do
    let found ← ask (.fetchBfeClusters { name := some name })
    let bfe ← require (.notExist "BfeCluster" name) found.head?
    let clusters ← ask (.fetchClusters {})
    let _ ← forAll (shrinkMatrix bfe.name) clusters
    ask (.deleteBfeCluster bfe.id)

def fetchAll : Operation (List BfeCluster) := .query (ask (.fetchBfeClusters {}))

end FleetControl.Control.BfeClusters
