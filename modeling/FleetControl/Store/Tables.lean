import FleetControl.Store.Work

/-!
The store as tables in memory. One counter numbers the records of all tables. A unit of work runs on
a copy of the tables, which replaces them when it is committed, so units of work never overlap and
the locks have nothing to do.
-/

namespace FleetControl.Store

structure Tables where
  nextId : Int
  products : SortedMap ProductId Product
  pools : SortedMap PoolId Pool
  bfeClusters : SortedMap BfeClusterId BfeCluster
  subClusters : SortedMap SubClusterId SubCluster.Record
  clusters : SortedMap ClusterId Cluster.Record
  /-- Each with the product of its cluster. -/
  loadMatrices : SortedMap ClusterId (ProductId × LoadMatrix)
  domains : SortedMap DomainId Domain
  routeRules : SortedMap ProductId RouteRules
  certificates : SortedMap CertificateId Certificate
  /-- Oldest first. -/
  ledger : List ConfigVersion

namespace Tables

def start : Tables where
  nextId := Product.builtinId.val + 1
  products := (∅ : SortedMap ProductId Product).insert Product.builtinId Product.builtin
  pools := ∅
  bfeClusters := ∅
  subClusters := ∅
  clusters := ∅
  loadMatrices := ∅
  domains := ∅
  routeRules := ∅
  certificates := ∅
  ledger := []

def sortByName {α : Type} (name : α → String) (l : List α) : List α :=
  l.mergeSort fun a b => decide (name a ≤ name b)

def select {kind : Kind} {α : Type} (table : SortedMap (Id kind) α) (admits : α → Bool)
    (name : α → String) : List α :=
  sortByName name (table.values.filter admits)

def history (t : Tables) (topic : String) : List ConfigVersion :=
  t.ledger.filter (·.topic = topic)

def bindOne (t : Tables) (cluster : ClusterId) (id : SubClusterId) : Except Fault Tables :=
  match t.subClusters.get? id with
  | none => .error (.notExist "SubCluster" id.text)
  | some r =>
    match r.clusterId with
    | some mounted =>
      .error (.modelViolation
        ("Sub cluster '" ++ r.name ++ "' is already mounted to cluster " ++ mounted.text))
    | none =>
      .ok { t with subClusters := t.subClusters.insert id { r with clusterId := some cluster } }

def unbindOne (t : Tables) (id : SubClusterId) : Except Fault Tables :=
  match t.subClusters.get? id with
  | none => .error (.notExist "SubCluster" id.text)
  | some r => .ok { t with subClusters := t.subClusters.insert id { r with clusterId := none } }

/-- Write one by one; what was written before a failure stays. -/
def writeEach {ι : Type} (write : Tables → ι → Except Fault Tables) :
    List ι → Tables → Except Fault Unit × Tables
  | [], t => (.ok (), t)
  | i :: rest, t =>
    match write t i with
    | .ok t' => writeEach write rest t'
    | .error f => (.error f, t)

def change {kind : Kind} {α : Type} (resource : String) (table : SortedMap (Id kind) α)
    (id : Id kind) (t : Tables) (write : α → Tables) : Except Fault Unit × Tables :=
  match table.get? id with
  | some a => (.ok (), write a)
  | none => (.error (.notExist resource id.text), t)

open Request in
def answer : Work.Handler Tables
  | fetchProducts f, t => (.ok (select t.products f.admits Product.name), t)
  | createProduct d, t =>
    let p := d.withId ⟨t.nextId⟩
    (.ok p, { t with nextId := t.nextId + 1, products := t.products.insert p.id p })
  | updateProduct p, t =>
    change "Product" t.products p.id t fun _ => { t with products := t.products.insert p.id p }
  | deleteProduct id, t =>
    change "Product" t.products id t fun _ => { t with products := t.products.erase id }
  | fetchPools f, t => (.ok (select t.pools f.admits Pool.name), t)
  | createPool d, t =>
    let p := d.withId ⟨t.nextId⟩
    (.ok p, { t with nextId := t.nextId + 1, pools := t.pools.insert p.id p })
  | updatePoolInstances id instances, t =>
    change "Pool" t.pools id t fun p =>
      { t with pools := t.pools.insert id { p with instances := instances } }
  | deletePool id, t => change "Pool" t.pools id t fun _ => { t with pools := t.pools.erase id }
  | fetchBfeClusters f, t => (.ok (select t.bfeClusters f.admits BfeCluster.name), t)
  | createBfeCluster d, t =>
    let b := d.withId ⟨t.nextId⟩
    (.ok b, { t with nextId := t.nextId + 1, bfeClusters := t.bfeClusters.insert b.id b })
  | deleteBfeCluster id, t =>
    change "BfeCluster" t.bfeClusters id t fun _ => { t with bfeClusters := t.bfeClusters.erase id }
  | fetchSubClusters f, t => (.ok (select t.subClusters f.admits SubCluster.Record.name), t)
  | createSubCluster d, t =>
    let s := d.withId ⟨t.nextId⟩
    (.ok s, { t with nextId := t.nextId + 1, subClusters := t.subClusters.insert s.id s })
  | updateSubCluster id u, t =>
    change "SubCluster" t.subClusters id t fun s =>
      { t with subClusters := t.subClusters.insert id (u.apply s) }
  | deleteSubCluster id, t =>
    change "SubCluster" t.subClusters id t fun _ => { t with subClusters := t.subClusters.erase id }
  | bindSubClusters cluster ids, t => writeEach (bindOne · cluster ·) ids t
  | unbindSubClusters ids, t => writeEach unbindOne ids t
  | fetchClusters f, t => (.ok (select t.clusters f.admits Cluster.Record.name), t)
  | createCluster d, t =>
    let c := d.withId ⟨t.nextId⟩
    (.ok c, { t with nextId := t.nextId + 1, clusters := t.clusters.insert c.id c })
  | updateCluster c, t =>
    change "Cluster" t.clusters c.id t fun _ => { t with clusters := t.clusters.insert c.id c }
  | deleteCluster id, t =>
    change "Cluster" t.clusters id t fun _ => { t with clusters := t.clusters.erase id }
  | lockCluster _, t => (.ok (), t)
  | fetchLoadMatrix cluster, t => (.ok ((t.loadMatrices.get? cluster).map Prod.snd), t)
  | putLoadMatrix cluster product matrix, t =>
    (.ok (), { t with loadMatrices := t.loadMatrices.insert cluster (product, matrix) })
  | deleteLoadMatrix cluster, t =>
    (.ok (), { t with loadMatrices := t.loadMatrices.erase cluster })
  | fetchDomains f, t => (.ok (select t.domains f.admits Domain.name), t)
  | createDomain d, t =>
    let x := d.withId ⟨t.nextId⟩
    (.ok x, { t with nextId := t.nextId + 1, domains := t.domains.insert x.id x })
  | deleteDomain id, t =>
    change "Domain" t.domains id t fun _ => { t with domains := t.domains.erase id }
  | lockAdvancedRules _, t => (.ok (), t)
  | fetchRouteRules product, t => (.ok (t.routeRules.filter fun id _ => product.all (id = ·)), t)
  | deleteRouteRules product, t => (.ok (), { t with routeRules := t.routeRules.erase product })
  | createRouteRules product rules, t =>
    let old := (t.routeRules.get? product).getD .empty
    (.ok (), { t with routeRules := t.routeRules.insert product (old.append rules) })
  | fetchCertificates f, t => (.ok (select t.certificates f.admits Certificate.name), t)
  | createCertificate d, t =>
    let c := d.withId ⟨t.nextId⟩
    (.ok c, { t with nextId := t.nextId + 1, certificates := t.certificates.insert c.id c })
  | setDefaultCertificate id, t =>
    change "Certificate" t.certificates id t fun _ =>
      { t with certificates := t.certificates.map fun _ c => { c with isDefault := c.id = id } }
  | deleteCertificate id, t =>
    change "Certificate" t.certificates id t fun _ =>
      { t with certificates := t.certificates.erase id }
  | lockTopic _, t => (.ok (), t)
  | latestVersion topic, t => (.ok (t.history topic).getLast?, t)
  | versionHistory topic, t => (.ok (t.history topic), t)
  | appendVersion row, t => (.ok (), { t with ledger := t.ledger ++ [row] })

def perform {α : Type} (t : Tables) : Operation α → Except Fault α × Tables
  | .refuse f => (.error f, t)
  | .query work => ((work.run answer t).1, t)
  | .update work =>
    match work.run answer t with
    | (.ok a, t') => (.ok a, t')
    | (.error f, _) => (.error f, t)

end Tables

/-- The answer of a store that begins no unit of work. -/
def performClosed {α : Type} : Operation α → Fault
  | .refuse f => f
  | _ => .storage "Failed to begin transaction"

end FleetControl.Store
