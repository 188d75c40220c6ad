import FleetControl.Store.Filter

/-!
What can be asked of a store within a unit of work, and the type of each answer. Reads of a table
come back in the order of names. Locks hold until the unit of work ends.
-/

namespace FleetControl.Store

inductive Request where
  | fetchProducts (filter : ProductFilter)
  | createProduct (draft : Product.Draft)
  | updateProduct (product : Product)
  | deleteProduct (id : ProductId)
  | fetchPools (filter : PoolFilter)
  | createPool (draft : Pool.Draft)
  | updatePoolInstances (id : PoolId) (instances : List Instance)
  | deletePool (id : PoolId)
  | fetchBfeClusters (filter : BfeClusterFilter)
  | createBfeCluster (draft : BfeCluster.Draft)
  | deleteBfeCluster (id : BfeClusterId)
  | fetchSubClusters (filter : SubClusterFilter)
  | createSubCluster (draft : SubCluster.Draft)
  | updateSubCluster (id : SubClusterId) (revision : SubCluster.Revision)
  | deleteSubCluster (id : SubClusterId)
  | bindSubClusters (cluster : ClusterId) (ids : List SubClusterId)
  | unbindSubClusters (ids : List SubClusterId)
  | fetchClusters (filter : ClusterFilter)
  | createCluster (draft : Cluster.Draft)
  | updateCluster (record : Cluster.Record)
  | deleteCluster (id : ClusterId)
  | lockCluster (id : ClusterId)
  | fetchLoadMatrix (cluster : ClusterId)
  | putLoadMatrix (cluster : ClusterId) (product : ProductId) (matrix : LoadMatrix)
  | deleteLoadMatrix (cluster : ClusterId)
  | fetchDomains (filter : DomainFilter)
  | createDomain (draft : Domain.Draft)
  | deleteDomain (id : DomainId)
  | lockAdvancedRules (product : ProductId)
  /-- The rules of one product, or of every product that has any. -/
  | fetchRouteRules (product : Option ProductId)
  | deleteRouteRules (product : ProductId)
  | createRouteRules (product : ProductId) (rules : RouteRules)
  | fetchCertificates (filter : CertificateFilter)
  | createCertificate (draft : Certificate.Draft)
  | setDefaultCertificate (id : CertificateId)
  | deleteCertificate (id : CertificateId)
  | lockTopic (topic : String)
  | latestVersion (topic : String)
  | versionHistory (topic : String)
  | appendVersion (row : ConfigVersion)

@[reducible] def Request.Reply : Request → Type
  | fetchProducts _ => List Product
  | createProduct _ => Product
  | fetchPools _ => List Pool
  | createPool _ => Pool
  | fetchBfeClusters _ => List BfeCluster
  | createBfeCluster _ => BfeCluster
  | fetchSubClusters _ => List SubCluster.Record
  | createSubCluster _ => SubCluster.Record
  | fetchClusters _ => List Cluster.Record
  | createCluster _ => Cluster.Record
  | fetchLoadMatrix _ => Option LoadMatrix
  | fetchDomains _ => List Domain
  | createDomain _ => Domain
  | fetchRouteRules _ => SortedMap ProductId RouteRules
  | fetchCertificates _ => List Certificate
  | createCertificate _ => Certificate
  | latestVersion _ => Option ConfigVersion
  | versionHistory _ => List ConfigVersion
  | updateProduct _ | deleteProduct _ | updatePoolInstances .. | deletePool _ | deleteBfeCluster _
  | updateSubCluster .. | deleteSubCluster _ | bindSubClusters .. | unbindSubClusters _
  | updateCluster _ | deleteCluster _ | lockCluster _ | putLoadMatrix .. | deleteLoadMatrix _
  | deleteDomain _ | lockAdvancedRules _ | deleteRouteRules _ | createRouteRules ..
  | setDefaultCertificate _ | deleteCertificate _ | lockTopic _ | appendVersion _ => Unit

end FleetControl.Store
