import FleetControl.Sql.Session
import FleetControl.Store.Work

/-!
The store as a relational database. Each request is one or a few statements; structured values are
kept as JSON columns, and a load matrix as the JSON text it is exported as. A unit of work is one
transaction, which is rolled back unless it is committed.
-/

namespace FleetControl.Store.Database

open Sql

/-! ## Rows -/

def product? (r : Row) : Option Product := do
  return ⟨← r.column? "id", ← r.column? "name", ← r.column? "description",
    ← r.jsonColumn? "mail_list", ← r.jsonColumn? "contact"⟩

/-- A pool's row; tag and type are plain text there and may be anything. -/
structure PoolRow where
  id : PoolId
  name : String
  productId : ProductId
  tag : String
  poolType : String
  instances : List Instance

def poolRow? (r : Row) : Option PoolRow := do
  return ⟨← r.column? "id", ← r.column? "name", ← r.column? "product_id", ← r.column? "tag",
    ← r.column? "pool_type", ← r.jsonColumn? "instances"⟩

def PoolRow.pool (r : PoolRow) : Except Fault Pool :=
  match PoolTag.ofText? r.tag, PoolType.ofText? r.poolType with
  | some tag, some poolType => .ok ⟨r.id, r.name, r.productId, tag, poolType, r.instances⟩
  | none, _ => .error (.dirtyData ("Pool '" ++ r.name ++ "' has unknown tag '" ++ r.tag ++ "'"))
  | _, none =>
    .error (.dirtyData ("Pool '" ++ r.name ++ "' has unknown type '" ++ r.poolType ++ "'"))

def bfeCluster? (r : Row) : Option BfeCluster := do
  return ⟨← r.column? "id", ← r.column? "name", ← r.column? "pool_id", ← r.column? "capacity",
    ← r.column? "enabled"⟩

def subCluster? (r : Row) : Option SubCluster.Record := do
  return ⟨← r.column? "id", ← r.column? "name", ← r.column? "product_id",
    ← r.column? "description", ← r.column? "pool_id", ← r.column? "cluster_id"⟩

def cluster? (r : Row) : Option Cluster.Record := do
  return ⟨← r.column? "id", ← r.column? "name", ← r.column? "product_id",
    ← r.column? "description", ← r.jsonColumn? "basic", ← r.jsonColumn? "sticky_sessions",
    ← r.jsonColumn? "passive_health_check"⟩

def domain? (r : Row) : Option Domain := do
  return ⟨← r.column? "id", ← r.column? "name", ← r.column? "product_id",
    ← r.column? "using_advanced_redirect", ← r.column? "using_advanced_hsts"⟩

def basicRule? (r : Row) : Option (ProductId × BasicRule) := do
  return (← r.column? "product_id", ⟨← r.jsonColumn? "host_names", ← r.jsonColumn? "paths",
    ← r.column? "cluster_name", ← r.column? "cluster_id", ← r.column? "description"⟩)

def advancedRule? (r : Row) : Option (ProductId × AdvancedRule) := do
  return (← r.column? "product_id", ⟨← r.column? "name", ← r.column? "expression",
    ← r.column? "cluster_name", ← r.column? "cluster_id", ← r.column? "description"⟩)

def certificate? (r : Row) : Option Certificate := do
  return ⟨← r.column? "id", ← r.column? "name", ← r.column? "description",
    ← r.column? "is_default", ← r.column? "cert_file_path", ← r.column? "key_file_path",
    ← r.column? "expired_date"⟩

def version? (r : Row) : Option ConfigVersion := do
  return ⟨← r.column? "topic", ← r.column? "signature", ← r.column? "version",
    ← r.column? "created_at"⟩

def groupRules (basic : List (ProductId × BasicRule)) (advanced : List (ProductId × AdvancedRule)) :
    SortedMap ProductId RouteRules :=
  let add (m : SortedMap ProductId RouteRules) (id : ProductId) (r : RouteRules) :=
    m.insert id (((m.get? id).getD .empty).append r)
  let withBasic := basic.foldl (fun m r => add m r.1 ⟨[r.2], []⟩) ∅
  advanced.foldl (fun m r => add m r.1 ⟨[], [r.2]⟩) withBasic

/-! ## Statements -/

def productColumns : String := "id, name, description, mail_list, contact"

def poolColumns : String := "id, name, product_id, tag, pool_type, instances"

def bfeClusterColumns : String := "id, name, pool_id, capacity, enabled"

def subClusterColumns : String := "id, name, product_id, description, pool_id, cluster_id"

def clusterColumns : String :=
  "id, name, product_id, description, basic, sticky_sessions, passive_health_check"

def domainColumns : String := "id, name, product_id, using_advanced_redirect, using_advanced_hsts"

def certificateColumns : String :=
  "id, name, description, is_default, cert_file_path, key_file_path, expired_date"

def quoted (s : String) : String := "'" ++ s ++ "'"

def onRow {kind : Kind} (resource : String) (id : Id kind) (context : String) (st : Statement) :
    Exchange Fault Unit := do
  let count ← execute context st
  if count = 0 then throw (.notExist resource id.text)

def run (context : String) (st : Statement) : Exchange Fault Unit := do
  let _ ← execute context st

def numbered {α : Type} : (n : Nat) → List α → List (Nat × α)
  | _, [] => []
  | n, a :: as => (n, a) :: numbered (n + 1) as

/-- The position is narrowed to a word of 32 bits. -/
def basicRuleStatement (product : ProductId) (position : Nat) (r : BasicRule) : Statement :=
  ⟨"INSERT INTO basic_route_rules (product_id, position, host_names, paths, cluster_id, " ++
    "cluster_name, description) VALUES ($1, $2, $3, $4, $5, $6, $7)",
    [arg product, .int4 (Int32.ofNat position).toInt, .json (encode r.hostNames),
      .json (encode r.paths), arg r.clusterId, arg r.clusterName, arg r.description]⟩

def insertBasicRule (product : ProductId) (position : Nat) (r : BasicRule) : Exchange Fault Unit :=
  run ("Failed to insert basic rule of product " ++ product.text)
    (basicRuleStatement product position r)

def advancedRuleStatement (product : ProductId) (position : Nat) (r : AdvancedRule) : Statement :=
  ⟨"INSERT INTO advanced_route_rules (product_id, position, name, expression, cluster_id, " ++
    "cluster_name, description) VALUES ($1, $2, $3, $4, $5, $6, $7)",
    [arg product, .int4 (Int32.ofNat position).toInt, arg r.name, arg r.expression,
      arg r.clusterId, arg r.clusterName, arg r.description]⟩

def insertAdvancedRule (product : ProductId) (position : Nat) (r : AdvancedRule) :
    Exchange Fault Unit :=
  run ("Failed to insert advanced rule " ++ quoted r.name ++ " of product " ++ product.text)
    (advancedRuleStatement product position r)

def basicRulesQuery (product : Option ProductId) : Statement :=
  ⟨"SELECT product_id, host_names, paths, cluster_id, cluster_name, description " ++
    "FROM basic_route_rules WHERE ($1::BIGINT IS NULL OR product_id = $1) " ++
    "ORDER BY product_id, position", [arg product]⟩

def advancedRulesQuery (product : Option ProductId) : Statement :=
  ⟨"SELECT product_id, name, expression, cluster_id, cluster_name, description " ++
    "FROM advanced_route_rules WHERE ($1::BIGINT IS NULL OR product_id = $1) " ++
    "ORDER BY product_id, position", [arg product]⟩

def notAllBound (count asked : Nat) (cluster : ClusterId) : Fault :=
  .modelViolation ("Only " ++ String.ofList (Text.ofNat count) ++ " of " ++
    String.ofList (Text.ofNat asked) ++ " sub clusters could be mounted to cluster " ++
    cluster.text ++ "; the rest are missing or already mounted")

/-! ## Requests -/

open Request in
def exchange : (r : Request) → Exchange Fault r.Reply
  | fetchProducts f =>
    fetchAll "Failed to fetch products"
      ⟨"SELECT " ++ productColumns ++ " FROM products WHERE ($1::BIGINT IS NULL OR id = $1) " ++
        "AND ($2::TEXT IS NULL OR name = $2) ORDER BY name", [arg f.id, arg f.name]⟩ product?
  | createProduct d =>
    fetchOne ("Failed to create product " ++ quoted d.name)
      ⟨"INSERT INTO products (name, description, mail_list, contact) VALUES ($1, $2, $3, $4) " ++
        "RETURNING " ++ productColumns,
        [arg d.name, arg d.description, .json (encode d.mailList), .json (encode d.contact)]⟩
      product?
  | updateProduct p =>
    onRow "Product" p.id ("Failed to update product " ++ p.id.text)
      ⟨"UPDATE products SET name = $2, description = $3, mail_list = $4, contact = $5, " ++
        "updated_at = CURRENT_TIMESTAMP WHERE id = $1",
        [arg p.id, arg p.name, arg p.description, .json (encode p.mailList),
          .json (encode p.contact)]⟩
  | deleteProduct id =>
    onRow "Product" id ("Failed to delete product " ++ id.text)
      ⟨"DELETE FROM products WHERE id = $1", [arg id]⟩
  | fetchPools f => do
    let rows ← fetchAll "Failed to fetch pools"
      ⟨"SELECT " ++ poolColumns ++ " FROM pools WHERE ($1::BIGINT IS NULL OR id = $1) " ++
        "AND ($2::BIGINT[] IS NULL OR id = ANY($2)) AND ($3::TEXT IS NULL OR name = $3) " ++
        "AND ($4::BIGINT IS NULL OR product_id = $4) ORDER BY name",
        [arg f.id, arg f.ids, arg f.name, arg f.productId]⟩ poolRow?
    liftExcept (rows.mapM PoolRow.pool)
  | createPool d => do
    let row ← fetchOne ("Failed to create pool " ++ quoted d.name)
      ⟨"INSERT INTO pools (name, product_id, tag, pool_type, instances) " ++
        "VALUES ($1, $2, $3, $4, $5) RETURNING " ++ poolColumns,
        [arg d.name, arg d.productId, arg d.tag.text, arg d.poolType.text,
          .json (encode d.instances)]⟩ poolRow?
    liftExcept row.pool
  | updatePoolInstances id instances =>
    onRow "Pool" id ("Failed to update instances of pool " ++ id.text)
      ⟨"UPDATE pools SET instances = $2, updated_at = CURRENT_TIMESTAMP WHERE id = $1",
        [arg id, .json (encode instances)]⟩
  | deletePool id =>
    onRow "Pool" id ("Failed to delete pool " ++ id.text)
      ⟨"DELETE FROM pools WHERE id = $1", [arg id]⟩
  | fetchBfeClusters f =>
    fetchAll "Failed to fetch BFE clusters"
      ⟨"SELECT " ++ bfeClusterColumns ++ " FROM bfe_clusters WHERE ($1::TEXT IS NULL OR name = $1) " ++
        "AND ($2::BIGINT IS NULL OR pool_id = $2) ORDER BY name", [arg f.name, arg f.poolId]⟩
      bfeCluster?
  | createBfeCluster d =>
    fetchOne ("Failed to create BFE cluster " ++ quoted d.name)
      ⟨"INSERT INTO bfe_clusters (name, pool_id, capacity, enabled) VALUES ($1, $2, $3, $4) " ++
        "RETURNING " ++ bfeClusterColumns,
        [arg d.name, arg d.poolId, arg d.capacity, arg d.enabled]⟩ bfeCluster?
  | deleteBfeCluster id =>
    onRow "BfeCluster" id ("Failed to delete BFE cluster " ++ id.text)
      ⟨"DELETE FROM bfe_clusters WHERE id = $1", [arg id]⟩
  | fetchSubClusters f =>
    fetchAll "Failed to fetch sub clusters"
      ⟨"SELECT " ++ subClusterColumns ++ " FROM sub_clusters WHERE ($1::BIGINT IS NULL OR id = $1) " ++
        "AND ($2::BIGINT IS NULL OR product_id = $2) AND ($3::TEXT[] IS NULL OR name = ANY($3)) " ++
        "AND ($4::BIGINT IS NULL OR cluster_id = $4) AND ($5::BIGINT IS NULL OR pool_id = $5) " ++
        "ORDER BY name",
        [arg f.id, arg f.productId, arg f.names, arg f.clusterId, arg f.poolId]⟩ subCluster?
  | createSubCluster d =>
    fetchOne ("Failed to create sub cluster " ++ quoted d.name)
      ⟨"INSERT INTO sub_clusters (name, product_id, description, pool_id) " ++
        "VALUES ($1, $2, $3, $4) RETURNING " ++ subClusterColumns,
        [arg d.name, arg d.productId, arg d.description, arg d.poolId]⟩ subCluster?
  | updateSubCluster id u =>
    onRow "SubCluster" id ("Failed to update sub cluster " ++ id.text)
      ⟨"UPDATE sub_clusters SET pool_id = COALESCE($2, pool_id), " ++
        "description = COALESCE($3, description), updated_at = CURRENT_TIMESTAMP WHERE id = $1",
        [arg id, arg u.poolId, arg u.description]⟩
  | deleteSubCluster id =>
    onRow "SubCluster" id ("Failed to delete sub cluster " ++ id.text)
      ⟨"DELETE FROM sub_clusters WHERE id = $1", [arg id]⟩
  | bindSubClusters cluster ids => do
    let count ← execute ("Failed to bind sub clusters to cluster " ++ cluster.text)
      ⟨"UPDATE sub_clusters SET cluster_id = $1, updated_at = CURRENT_TIMESTAMP " ++
        "WHERE id = ANY($2) AND cluster_id IS NULL", [arg cluster, arg ids]⟩
    if count ≠ ids.length then throw (notAllBound count ids.length cluster)
  | unbindSubClusters ids =>
    run "Failed to unbind sub clusters"
      ⟨"UPDATE sub_clusters SET cluster_id = NULL, updated_at = CURRENT_TIMESTAMP " ++
        "WHERE id = ANY($1)", [arg ids]⟩
  | fetchClusters f =>
    fetchAll "Failed to fetch clusters"
      ⟨"SELECT " ++ clusterColumns ++ " FROM clusters WHERE ($1::BIGINT IS NULL OR id = $1) " ++
        "AND ($2::TEXT IS NULL OR name = $2) AND ($3::BIGINT IS NULL OR product_id = $3) " ++
        "ORDER BY name", [arg f.id, arg f.name, arg f.productId]⟩ cluster?
  | createCluster d =>
    fetchOne ("Failed to create cluster " ++ quoted d.name)
      ⟨"INSERT INTO clusters (name, product_id, description, basic, sticky_sessions, " ++
        "passive_health_check) VALUES ($1, $2, $3, $4, $5, $6) RETURNING " ++ clusterColumns,
        [arg d.name, arg d.productId, arg d.description, .json (encode d.basic),
          .json (encode d.stickySessions), .json (encode d.passiveHealthCheck)]⟩ cluster?
  | updateCluster c =>
    onRow "Cluster" c.id ("Failed to update cluster " ++ quoted c.name)
      ⟨"UPDATE clusters SET description = $2, basic = $3, sticky_sessions = $4, " ++
        "passive_health_check = $5, updated_at = CURRENT_TIMESTAMP WHERE id = $1",
        [arg c.id, arg c.description, .json (encode c.basic), .json (encode c.stickySessions),
          .json (encode c.passiveHealthCheck)]⟩
  | deleteCluster id =>
    onRow "Cluster" id ("Failed to delete cluster " ++ id.text)
      ⟨"DELETE FROM clusters WHERE id = $1", [arg id]⟩
  | lockCluster id => do
    let row ← fetchOptional ("Failed to lock cluster " ++ id.text)
      ⟨"SELECT id FROM clusters WHERE id = $1 FOR UPDATE", [arg id]⟩ some
    if row.isNone then throw (.notExist "Cluster" id.text)
  | fetchLoadMatrix cluster => do
    let raw ← fetchOptional ("Failed to fetch LB matrix of cluster " ++ cluster.text)
      ⟨"SELECT lb_matrix FROM lb_matrices WHERE cluster_id = $1", [arg cluster]⟩
      (Row.first? (α := String))
    match raw with
    | none => return none
    | some text => some <$> liftExcept (LoadMatrix.ofStored text)
  | putLoadMatrix cluster product matrix =>
    run ("Failed to store LB matrix of cluster " ++ cluster.text)
      ⟨"INSERT INTO lb_matrices (cluster_id, product_id, lb_matrix) VALUES ($1, $2, $3) " ++
        "ON CONFLICT (cluster_id) DO UPDATE SET product_id = EXCLUDED.product_id, " ++
        "lb_matrix = EXCLUDED.lb_matrix, updated_at = CURRENT_TIMESTAMP",
        [arg cluster, arg product, arg (encode matrix).text]⟩
  | deleteLoadMatrix cluster =>
    run ("Failed to delete LB matrix of cluster " ++ cluster.text)
      ⟨"DELETE FROM lb_matrices WHERE cluster_id = $1", [arg cluster]⟩
  | fetchDomains f =>
    fetchAll "Failed to fetch domains"
      ⟨"SELECT " ++ domainColumns ++ " FROM domains WHERE ($1::BIGINT IS NULL OR product_id = $1) " ++
        "AND ($2::TEXT IS NULL OR name = $2) ORDER BY name", [arg f.productId, arg f.name]⟩ domain?
  | createDomain d =>
    fetchOne ("Failed to create domain " ++ quoted d.name)
      ⟨"INSERT INTO domains (name, product_id, using_advanced_redirect, using_advanced_hsts) " ++
        "VALUES ($1, $2, $3, $4) RETURNING " ++ domainColumns,
        [arg d.name, arg d.productId, arg d.usingAdvancedRedirect, arg d.usingAdvancedHsts]⟩
      domain?
  | deleteDomain id =>
    onRow "Domain" id ("Failed to delete domain " ++ id.text)
      ⟨"DELETE FROM domains WHERE id = $1", [arg id]⟩
  | lockAdvancedRules product => do
    let _ ← fetchOptional ("Failed to lock product " ++ product.text)
      ⟨"SELECT id FROM products WHERE id = $1 FOR UPDATE", [arg product]⟩ some
    let _ ← fetchAll ("Failed to lock advanced rules of product " ++ product.text)
      ⟨"SELECT id FROM advanced_route_rules WHERE product_id = $1 FOR UPDATE", [arg product]⟩ some
  | fetchRouteRules product => do
    let basic ← fetchAll "Failed to fetch basic route rules" (basicRulesQuery product) basicRule?
    let advanced ← fetchAll "Failed to fetch advanced route rules" (advancedRulesQuery product)
      advancedRule?
    return groupRules basic advanced
  | deleteRouteRules product => do
    run ("Failed to delete basic rules of product " ++ product.text)
      ⟨"DELETE FROM basic_route_rules WHERE product_id = $1", [arg product]⟩
    run ("Failed to delete advanced rules of product " ++ product.text)
      ⟨"DELETE FROM advanced_route_rules WHERE product_id = $1", [arg product]⟩
  | createRouteRules product rules => do
    let _ ← (numbered 0 rules.basic).mapM fun (i, r) => insertBasicRule product i r
    let _ ← (numbered 0 rules.advanced).mapM fun (i, r) => insertAdvancedRule product i r
  | fetchCertificates f =>
    fetchAll "Failed to fetch certificates"
      ⟨"SELECT " ++ certificateColumns ++ " FROM certificates WHERE ($1::TEXT IS NULL OR name = $1) " ++
        "AND ($2::BOOLEAN IS NULL OR is_default = $2) ORDER BY name", [arg f.name, arg f.isDefault]⟩
      certificate?
  | createCertificate d =>
    fetchOne ("Failed to create certificate " ++ quoted d.name)
      ⟨"INSERT INTO certificates (name, description, is_default, cert_file_path, " ++
        "key_file_path, expired_date) VALUES ($1, $2, $3, $4, $5, $6) RETURNING " ++
        certificateColumns,
        [arg d.name, arg d.description, arg d.isDefault, arg d.certFilePath, arg d.keyFilePath,
          arg d.expiredDate]⟩ certificate?
  | setDefaultCertificate id => do
    -- the old default goes first, so that there are never two
    run "Failed to clear default certificate"
      ⟨"UPDATE certificates SET is_default = FALSE WHERE is_default AND id <> $1", [arg id]⟩
    onRow "Certificate" id ("Failed to set default certificate " ++ id.text)
      ⟨"UPDATE certificates SET is_default = TRUE WHERE id = $1", [arg id]⟩
  | deleteCertificate id =>
    onRow "Certificate" id ("Failed to delete certificate " ++ id.text)
      ⟨"DELETE FROM certificates WHERE id = $1", [arg id]⟩
  | lockTopic topic =>
    run ("Failed to lock topic " ++ quoted topic)
      ⟨"SELECT pg_advisory_xact_lock(hashtext($1))", [arg topic]⟩
  | latestVersion topic =>
    fetchOptional ("Failed to fetch latest version of topic " ++ quoted topic)
      ⟨"SELECT topic, signature, version, created_at FROM config_versions WHERE topic = $1 " ++
        "ORDER BY id DESC LIMIT 1", [arg topic]⟩ version?
  | versionHistory topic =>
    fetchAll ("Failed to fetch versions of topic " ++ quoted topic)
      ⟨"SELECT topic, signature, version, created_at FROM config_versions WHERE topic = $1 " ++
        "ORDER BY id", [arg topic]⟩ version?
  | appendVersion row =>
    run ("Failed to append version of topic " ++ quoted row.topic)
      ⟨"INSERT INTO config_versions (topic, signature, version, created_at) " ++
        "VALUES ($1, $2, $3, $4)",
        [arg row.topic, arg row.signature, arg row.version, arg row.createdAt]⟩

def answer : Work.Handler Session := fun r s => exchange r s

def begin : Exchange Fault Unit := inContext "Failed to begin transaction" (control "BEGIN")

def commit : Exchange Fault Unit := inContext "Failed to commit transaction" (control "COMMIT")

def transact {α : Type} (work : Work α) : Exchange Fault α := fun s => work.run answer s

def perform {α : Type} : Operation α → Exchange Fault α
  | .refuse f => throw f
  | .query work => do
    begin
    transact work
  | .update work => do
    begin
    let a ← transact work
    commit
    return a

end FleetControl.Store.Database
