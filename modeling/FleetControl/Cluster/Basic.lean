import FleetControl.Cluster.Policy
import FleetControl.SubCluster

/-!
Clusters, what route rules send traffic to. A cluster is stored as a record of its policies; its
sub-clusters and its load matrix are stored apart and put together on reading.
-/

namespace FleetControl

namespace Cluster

structure Record where
  id : ClusterId
  name : String
  productId : ProductId
  description : String
  basic : ClusterBasic
  stickySessions : StickySessions
  passiveHealthCheck : PassiveHealthCheck
  deriving DecidableEq, Repr

instance : Json.Encode Record where
  encode c := .obj [("id", encode c.id), ("name", encode c.name),
    ("product_id", encode c.productId), ("description", encode c.description),
    ("basic", encode c.basic), ("sticky_sessions", encode c.stickySessions),
    ("passive_health_check", encode c.passiveHealthCheck)]

open Json.RecordReader in
instance : Json.Decode Record where
  decode? := Json.record? do
    return ⟨← required "id", ← required "name", ← required "product_id",
      ← required "description", ← required "basic", ← required "sticky_sessions",
      ← required "passive_health_check"⟩

/-- Route targets with a meaning of their own; both mean to go on with the advanced rules. -/
def advancedMode : String := "ADVANCED_MODE"

def isReservedName (name : String) : Bool := name = advancedMode || name = "GO_TO_ADVANCED_RULES"

structure Draft where
  name : String
  productId : ProductId
  description : String
  basic : ClusterBasic
  stickySessions : StickySessions
  passiveHealthCheck : PassiveHealthCheck
  deriving DecidableEq, Repr

def Draft.withId (d : Draft) (id : ClusterId) : Record :=
  ⟨id, d.name, d.productId, d.description, d.basic, d.stickySessions, d.passiveHealthCheck⟩

structure Proposal where
  name : String
  description : String
  basic : ClusterBasic
  stickySessions : StickySessions
  passiveHealthCheck : PassiveHealthCheck
  subClusters : List String
  scheduler : Option LoadMatrix
  deriving DecidableEq

open Json.RecordReader in
def Proposal.ofJson? : Json → Option Proposal :=
  Json.record? do
    return ⟨← required "name", ← defaulted "description" "", ← defaulted "basic" {},
      ← defaulted "sticky_sessions" {}, ← defaulted "passive_health_check" {},
      ← required "sub_clusters", ← optional "scheduler"⟩

def Proposal.findings (p : Proposal) : Findings :=
  .ofField "name" (Validation.entityName p.name) ++
  .ofField "description" (Validation.length none (some 1024) none p.description) ++
  p.basic.findings.inside ++ p.passiveHealthCheck.findings.inside

structure Change where
  description : Option String
  basic : Option ClusterBasic
  stickySessions : Option StickySessions
  passiveHealthCheck : Option PassiveHealthCheck
  scheduler : Option LoadMatrix
  deriving DecidableEq

open Json.RecordReader in
def Change.ofJson? : Json → Option Change :=
  Json.record? do
    return ⟨← optional "description", ← optional "basic", ← optional "sticky_sessions",
      ← optional "passive_health_check", ← optional "scheduler"⟩

def Change.findings (c : Change) : Findings :=
  .ofField "description" (c.description.bind (Validation.length none (some 1024) none)) ++
  (c.basic.elim .clean ClusterBasic.findings).inside ++
  (c.passiveHealthCheck.elim .clean PassiveHealthCheck.findings).inside

def Change.apply (c : Change) (r : Record) : Record :=
  { r with
    description := c.description.getD r.description
    basic := c.basic.getD r.basic
    stickySessions := c.stickySessions.getD r.stickySessions
    passiveHealthCheck := c.passiveHealthCheck.getD r.passiveHealthCheck }

end Cluster

structure Cluster where
  id : ClusterId
  name : String
  productId : ProductId
  description : String
  basic : ClusterBasic
  stickySessions : StickySessions
  passiveHealthCheck : PassiveHealthCheck
  subClusters : List SubCluster
  scheduler : Option LoadMatrix
  ready : Bool
  deriving DecidableEq

namespace Cluster

instance : Json.Encode Cluster where
  encode c := .obj [("id", encode c.id), ("name", encode c.name),
    ("product_id", encode c.productId), ("description", encode c.description),
    ("basic", encode c.basic), ("sticky_sessions", encode c.stickySessions),
    ("passive_health_check", encode c.passiveHealthCheck), ("sub_clusters", encode c.subClusters),
    ("scheduler", encode c.scheduler), ("ready", encode c.ready)]

def assemble (r : Record) (subClusters : List SubCluster) (scheduler : Option LoadMatrix)
    (ignoreReadiness : Bool) : Cluster :=
  ⟨r.id, r.name, r.productId, r.description, r.basic, r.stickySessions, r.passiveHealthCheck,
    subClusters, scheduler, ignoreReadiness || subClusters.all SubCluster.ready⟩

def subClusterNames (c : Cluster) : List String := c.subClusters.map (·.name)

def record (c : Cluster) : Record :=
  ⟨c.id, c.name, c.productId, c.description, c.basic, c.stickySessions, c.passiveHealthCheck⟩

end Cluster
end FleetControl
