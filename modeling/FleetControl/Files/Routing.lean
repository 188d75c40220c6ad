import FleetControl.Files.Versioned
import FleetControl.RouteRules

/-!
The files that route requests: which product a host belongs to, and which cluster a product's rules
send a request to.
-/

namespace FleetControl.Files

open Json.RecordReader

/-- Hosts by product. Every product has one host tag, which is its own name. -/
structure HostTable where
  version : String
  defaultProduct : Option String
  hosts : SortedMap String (List String)
  hostTags : SortedMap String (List String)
  deriving DecidableEq

namespace HostTable

instance : Versioned HostTable := ⟨version, fun v f => { f with version := v }⟩

instance : Json.Encode HostTable where
  encode f := .obj ([("Version", encode f.version)] ++
    (f.defaultProduct.map fun p => ("DefaultProduct", encode p)).toList ++
    [("Hosts", encode f.hosts), ("HostTags", encode f.hostTags)])

instance : Json.Decode HostTable where
  decode? := Json.record? do
    return ⟨← required "Version", ← optional "DefaultProduct", ← required "Hosts",
      ← required "HostTags"⟩

end HostTable

structure BasicRoute where
  hostname : List String
  path : List String
  clusterName : String
  deriving DecidableEq

namespace BasicRoute

instance : Json.Encode BasicRoute where
  encode r := .obj [("Hostname", encode r.hostname), ("Path", encode r.path),
    ("ClusterName", encode r.clusterName)]

instance : Json.Decode BasicRoute where
  decode? := Json.record? do
    return ⟨← required "Hostname", ← required "Path", ← required "ClusterName"⟩

/-- All reserved targets are written as one. -/
def ofRule (r : BasicRule) : BasicRoute :=
  ⟨r.hostNames, r.paths,
    if Cluster.isReservedName r.clusterName then Cluster.advancedMode else r.clusterName⟩

end BasicRoute

structure AdvancedRoute where
  cond : String
  clusterName : String
  deriving DecidableEq

namespace AdvancedRoute

instance : Json.Encode AdvancedRoute where
  encode r := .obj [("Cond", encode r.cond), ("ClusterName", encode r.clusterName)]

instance : Json.Decode AdvancedRoute where
  decode? := Json.record? do
    return ⟨← required "Cond", ← required "ClusterName"⟩

def ofRule (r : AdvancedRule) : AdvancedRoute := ⟨r.expression, r.clusterName⟩

end AdvancedRoute

structure RouteTable where
  version : String
  basicRule : SortedMap String (List BasicRoute)
  productRule : SortedMap String (List AdvancedRoute)
  deriving DecidableEq

namespace RouteTable

instance : Versioned RouteTable := ⟨version, fun v f => { f with version := v }⟩

instance : Json.Encode RouteTable where
  encode f := .obj [("Version", encode f.version), ("BasicRule", encode f.basicRule),
    ("ProductRule", encode f.productRule)]

instance : Json.Decode RouteTable where
  decode? := Json.record? do
    return ⟨← required "Version", ← required "BasicRule", ← required "ProductRule"⟩

end RouteTable
end FleetControl.Files
