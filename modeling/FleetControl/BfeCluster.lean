import FleetControl.Pool.Basic

/-!
BFE clusters, the deployment units of the load balancer fleet. Each is a row of every load matrix.
-/

namespace FleetControl

structure BfeCluster where
  id : BfeClusterId
  name : String
  poolId : PoolId
  /-- Queries per second. -/
  capacity : Int
  enabled : Bool
  deriving DecidableEq, Repr

namespace BfeCluster

instance : Json.Encode BfeCluster where
  encode b := .obj [("id", encode b.id), ("name", encode b.name), ("pool_id", encode b.poolId),
    ("capacity", encode b.capacity), ("enabled", encode b.enabled)]

structure Draft where
  name : String
  poolId : PoolId
  capacity : Int
  enabled : Bool
  deriving DecidableEq, Repr

def Draft.withId (d : Draft) (id : BfeClusterId) : BfeCluster :=
  ⟨id, d.name, d.poolId, d.capacity, d.enabled⟩

structure Proposal where
  name : String
  poolName : String
  capacity : Int
  deriving DecidableEq, Repr

open Json.RecordReader in
def Proposal.ofJson? : Json → Option Proposal :=
  Json.record? do
    return ⟨← required "name", ← required "pool_name", ← defaulted "capacity" 0⟩

def Proposal.findings (p : Proposal) : Findings :=
  .ofField "name" (Validation.entityName p.name) ++
  .ofField "pool_name" (Validation.length (some 1) none none p.poolName) ++
  .ofField "capacity" (Validation.range (some 0) none none p.capacity)

end BfeCluster
end FleetControl
