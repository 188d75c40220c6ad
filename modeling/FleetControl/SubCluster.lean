import FleetControl.LoadMatrix
import FleetControl.Pool.Basic

/-!
Sub-clusters: one pool each, mounted on at most one cluster, and the unit in which traffic is split.
-/

namespace FleetControl

namespace SubCluster

structure Record where
  id : SubClusterId
  name : String
  productId : ProductId
  description : String
  poolId : PoolId
  clusterId : Option ClusterId
  deriving DecidableEq, Repr

instance : Json.Encode Record where
  encode r := .obj [("id", encode r.id), ("name", encode r.name),
    ("product_id", encode r.productId), ("description", encode r.description),
    ("pool_id", encode r.poolId), ("cluster_id", encode r.clusterId)]

end SubCluster

structure SubCluster where
  id : SubClusterId
  name : String
  productId : ProductId
  description : String
  clusterId : Option ClusterId
  pool : Pool
  deriving DecidableEq

namespace SubCluster

instance : Json.Encode SubCluster where
  encode s := .obj [("id", encode s.id), ("name", encode s.name),
    ("product_id", encode s.productId), ("description", encode s.description),
    ("cluster_id", encode s.clusterId), ("pool", encode s.pool)]

open Json.RecordReader in
instance : Json.Decode SubCluster where
  decode? := Json.record? do
    return ⟨← required "id", ← required "name", ← required "product_id",
      ← required "description", ← optional "cluster_id", ← required "pool"⟩

def ofRecord (r : Record) (pool : Pool) : SubCluster :=
  ⟨r.id, r.name, r.productId, r.description, r.clusterId, pool⟩

def isMounted (s : SubCluster) : Bool := s.clusterId.isSome

def ready (s : SubCluster) : Bool := s.pool.ready

def nameObjection (s : String) : Option Objection :=
  match Validation.entityName s with
  | some o => some o
  | none =>
    if s = LoadMatrix.blackhole then
      some ⟨"reserved_name", some "is reserved for the LB matrix sink"⟩
    else none

structure Draft where
  name : String
  productId : ProductId
  description : String
  poolId : PoolId
  deriving DecidableEq, Repr

def Draft.withId (d : Draft) (id : SubClusterId) : Record :=
  ⟨id, d.name, d.productId, d.description, d.poolId, none⟩

structure Proposal where
  name : String
  poolName : String
  description : String
  deriving DecidableEq, Repr

open Json.RecordReader in
def Proposal.ofJson? : Json → Option Proposal :=
  Json.record? do
    return ⟨← required "name", ← required "pool_name", ← defaulted "description" ""⟩

def Proposal.findings (p : Proposal) : Findings :=
  .ofField "name" (nameObjection p.name) ++
  .ofField "pool_name" (Validation.length (some 1) none none p.poolName) ++
  .ofField "description" (Validation.length none (some 1024) none p.description)

structure Change where
  poolName : Option String
  description : Option String
  deriving DecidableEq, Repr

open Json.RecordReader in
def Change.ofJson? : Json → Option Change :=
  Json.record? do
    return ⟨← optional "pool_name", ← optional "description"⟩

def Change.findings (c : Change) : Findings :=
  .ofField "pool_name" (c.poolName.bind (Validation.length (some 1) none none)) ++
  .ofField "description" (c.description.bind (Validation.length none (some 1024) none))

structure Revision where
  poolId : Option PoolId
  description : Option String
  deriving DecidableEq, Repr

def Revision.apply (u : Revision) (r : Record) : Record :=
  { r with
    poolId := u.poolId.getD r.poolId
    description := u.description.getD r.description }

end SubCluster
end FleetControl
