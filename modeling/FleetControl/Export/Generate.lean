import FleetControl.Control.Lookup
import FleetControl.Export.Versioning
import FleetControl.Files.Backends
import FleetControl.Files.Routing
import FleetControl.Files.ServerCerts

/-!
How each file is generated from the store.
-/

namespace FleetControl.Export

open Store Work Control

def productNames : Work (SortedMap ProductId String) := do
  let products ← ask (.fetchProducts {})
  return .ofList (products.map fun p => (p.id, p.name))

def ownerName (names : SortedMap ProductId String) (f : Fault) (id : ProductId) :
    Except Fault String :=
  match names.get? id with
  | some name => .ok name
  | none => .error f

def addTo {β : Type} (m : SortedMap String (List β)) (key : String) (b : β) :
    SortedMap String (List β) :=
  m.insert key ((m.get? key).getD [] ++ [b])

def orphanDomain (d : Domain) : Fault :=
  .dirtyData ("Domain '" ++ d.name ++ "' references missing product " ++ d.productId.text)

def hostsByProduct (names : SortedMap ProductId String) (domains : List Domain) :
    Except Fault (SortedMap String (List String)) :=
  domains.foldlM (fun hosts d => (ownerName names (orphanDomain d) d.productId).map fun p =>
    addTo hosts p d.name) ∅

def hostTable (defaultProduct : Option String) : Exporter Files.HostTable where
  topic := "host_table"
  generate := do
    let names ← productNames
    match defaultProduct.filter fun p => !names.values.contains p with
    | some missing => .fail (.notExist "Product" missing)
    | none =>
      let domains ← ask (.fetchDomains {})
      let hosts ← ofExcept (hostsByProduct names domains)
      return ⟨"", defaultProduct, hosts, hosts.map fun product _ => [product]⟩

def orphanRules (id : ProductId) : Fault :=
  .dirtyData ("Route rules reference missing product " ++ id.text)

def rulesByName (names : SortedMap ProductId String) (rules : SortedMap ProductId RouteRules) :
    Except Fault (List (String × RouteRules)) :=
  rules.entries.mapM fun (id, r) => (ownerName names (orphanRules id) id).map fun name => (name, r)

def routeTable : Exporter Files.RouteTable where
  topic := "route_rule"
  generate := do
    let names ← productNames
    let rules ← ask (.fetchRouteRules none)
    let named ← ofExcept (rulesByName names rules)
    return ⟨"", .ofList (named.map fun (name, r) => (name, r.basic.map Files.BasicRoute.ofRule)),
      .ofList (named.map fun (name, r) => (name, r.advanced.map Files.AdvancedRoute.ofRule))⟩

def clusterTable : Exporter Files.ClusterTable where
  topic := "cluster_table"
  generate := do
    let clusters ← ask (.fetchClusters {})
    return ⟨"", .ofList (clusters.map fun c => (c.name, Files.ClusterConf.ofRecord c))⟩

def instanceList (s : SubCluster) : Except Fault (String × List Files.InstanceConf) :=
  (s.pool.instances.mapM (Files.InstanceConf.ofInstance s.pool)).map fun l => (s.name, l)

def clusterInstances (cluster : Cluster.Record) :
    Work (String × SortedMap String (List Files.InstanceConf)) := do
  let records ← boundSubClusters cluster.id
  let subClusters ← resolveSubClusters records
  let lists ← ofExcept (subClusters.mapM instanceList)
  return (cluster.name, .ofList lists)

def instanceTable : Exporter Files.InstanceTable where
  topic := "instance_table"
  generate := do
    let clusters ← ask (.fetchClusters {})
    let config ← forAll clusterInstances clusters
    return ⟨"", .ofList config⟩

def missingRow (cluster : Cluster.Record) (bfe : String) : Fault :=
  .dirtyData ("LB matrix of cluster '" ++ cluster.name ++ "' has no row for BFE cluster '" ++ bfe ++ "'")

def clusterRow (bfe : String) (cluster : Cluster.Record) : Work (String × LoadRow) := do
  let matrix ← ask (.fetchLoadMatrix cluster.id)
  let row ← require (missingRow cluster bfe) (matrix.bind (·.row? bfe))
  return (cluster.name, row)

def gslb (bfe : String) : Exporter Files.Gslb where
  topic := "gslb." ++ bfe
  generate := do
    let known ← ask (.fetchBfeClusters { name := some bfe })
    refuseIf (.notExist "BfeCluster" bfe) known.isEmpty
    let clusters ← ask (.fetchClusters {})
    let rows ← forAll (clusterRow bfe) clusters
    return ⟨.ofList rows, bfe, ""⟩

def serverCerts : Exporter Files.ServerCerts where
  topic := "certificate"
  generate := do
    let certificates ← ask (.fetchCertificates {})
    let defaultName := ((certificates.find? (·.isDefault)).map (·.name)).getD ""
    return ⟨"", defaultName, .ofList (certificates.map fun c =>
      (c.name, ⟨c.certFilePath, c.keyFilePath, none⟩))⟩

end FleetControl.Export
