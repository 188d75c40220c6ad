import FleetControl.Control.BfeClusters
import FleetControl.Control.Certificates
import FleetControl.Control.Clusters
import FleetControl.Control.Domains
import FleetControl.Control.Pools
import FleetControl.Control.Products
import FleetControl.Control.Routes
import FleetControl.Control.SubClusters
import FleetControl.Export.Topic
import FleetControl.Settings.Basic

/-!
Everything that can be asked of the control plane, as one type of calls. The plane decides what a
call means from its settings and the moment of the call; a store then performs it.
-/

namespace FleetControl

inductive Call where
  | createProduct (draft : Product.Draft)
  | updateProduct (name : String) (change : Product.Change)
  | deleteProduct (name : String)
  | fetchProduct (name : String)
  | fetchProducts
  | createBfeCluster (proposal : BfeCluster.Proposal)
  | deleteBfeCluster (name : String)
  | fetchBfeClusters
  | createPool (product : String) (proposal : Pool.Proposal)
  | updatePoolInstances (product pool : String) (instances : List Instance)
  | deletePool (product pool : String)
  | poolDeletable (product pool : String)
  | fetchPool (product pool : String)
  | fetchPools (product : String)
  | createSubCluster (product : String) (proposal : SubCluster.Proposal)
  | updateSubCluster (product name : String) (change : SubCluster.Change)
  | deleteSubCluster (product name : String)
  | fetchSubCluster (product name : String)
  | fetchSubClusters (product : String)
  | createCluster (product : String) (proposal : Cluster.Proposal)
  | updateCluster (product cluster : String) (change : Cluster.Change)
  | rebindSubClusters (product cluster : String) (names : List String)
  | deleteCluster (product cluster : String)
  | fetchCluster (product cluster : String)
  | fetchClusters (product : String)
  | createDomain (product : String) (proposal : Domain.Proposal)
  | deleteDomain (product name : String)
  | fetchDomains (product : String)
  | replaceRules (product : String) (rules : RouteRules)
  | fetchRules (product : String)
  | clusterReferenced (product cluster : String)
  | domainReferenced (host : String)
  | createCertificate (draft : Certificate.Draft)
  | setDefaultCertificate (name : String)
  | deleteCertificate (name : String)
  | fetchCertificates
  | exportTopic (topic : String) (last : Option String)
  | latestVersion (topic : String)
  | versionHistory (topic : String)

namespace Call

@[reducible] def Answer : Call → Type
  | createProduct _ | updateProduct .. | fetchProduct _ => Product
  | fetchProducts => List Product
  | createBfeCluster _ => BfeCluster
  | fetchBfeClusters => List BfeCluster
  | createPool .. | updatePoolInstances .. | fetchPool .. => Pool
  | poolDeletable .. | clusterReferenced .. | domainReferenced _ => Bool
  | fetchPools _ => List Pool
  | createSubCluster .. | updateSubCluster .. | fetchSubCluster .. => SubCluster
  | fetchSubClusters _ => List SubCluster
  | createCluster .. | updateCluster .. | rebindSubClusters .. | fetchCluster .. => Cluster
  | fetchClusters _ => List Cluster
  | createDomain .. => Domain
  | fetchDomains _ => List Domain
  | replaceRules .. | fetchRules _ => RouteRules
  | createCertificate _ | setDefaultCertificate _ => Certificate
  | fetchCertificates => List Certificate
  | exportTopic .. => Option Json
  | latestVersion _ => Option ConfigVersion
  | versionHistory _ => List ConfigVersion
  | deleteProduct _ | deleteBfeCluster _ | deletePool .. | deleteSubCluster .. | deleteCluster ..
  | deleteDomain .. | deleteCertificate _ => Unit

open Control in
def operation (settings : ControlSettings) (now : Instant) : (c : Call) → Store.Operation c.Answer
  | createProduct draft => Products.create draft
  | updateProduct name change => Products.update name change
  | deleteProduct name => Products.delete name
  | fetchProduct name => Products.fetch name
  | fetchProducts => Products.fetchAll
  | createBfeCluster proposal => BfeClusters.create proposal
  | deleteBfeCluster name => BfeClusters.delete name
  | fetchBfeClusters => BfeClusters.fetchAll
  | createPool product proposal => Pools.create product proposal
  | updatePoolInstances product pool instances => Pools.updateInstances product pool instances
  | deletePool product pool => Pools.delete product pool
  | poolDeletable product pool => Pools.deletable product pool
  | fetchPool product pool => Pools.fetch product pool
  | fetchPools product => Pools.fetchAll product
  | createSubCluster product proposal => SubClusters.create product proposal
  | updateSubCluster product name change => SubClusters.update product name change
  | deleteSubCluster product name => SubClusters.delete product name
  | fetchSubCluster product name => SubClusters.fetch product name
  | fetchSubClusters product => SubClusters.fetchAll product
  | createCluster product proposal =>
    Clusters.create settings.ignoreReadinessCheck product proposal
  | updateCluster product cluster change =>
    Clusters.update settings.ignoreReadinessCheck product cluster change
  | rebindSubClusters product cluster names =>
    Clusters.rebind settings.ignoreReadinessCheck product cluster names
  | deleteCluster product cluster =>
    Clusters.delete settings.ignoreReadinessCheck [routeRuleChecker] product cluster
  | fetchCluster product cluster => Clusters.fetch settings.ignoreReadinessCheck product cluster
  | fetchClusters product => Clusters.fetchAll settings.ignoreReadinessCheck product
  | createDomain product proposal => Domains.create product proposal
  | deleteDomain product name => Domains.delete product name
  | fetchDomains product => Domains.fetchAll product
  | replaceRules product rules => Routes.replace settings.ignoreReadinessCheck product rules
  | fetchRules product => Routes.fetch product
  | clusterReferenced product cluster => Routes.clusterReferenced product cluster
  | domainReferenced host => Routes.domainReferenced host
  | createCertificate draft => Certificates.create draft
  | setDefaultCertificate name => Certificates.setDefault name
  | deleteCertificate name => Certificates.delete name
  | fetchCertificates => Certificates.fetchAll
  | exportTopic topic last => Export.exportTopic settings.defaultProduct now topic last
  | latestVersion topic => Export.latestVersion topic
  | versionHistory topic => Export.versionHistory topic

def encodeAnswer : (c : Call) → c.Answer → Json
  | createProduct _, a | updateProduct .., a | fetchProduct _, a => encode a
  | fetchProducts, a => encode a
  | createBfeCluster _, a => encode a
  | fetchBfeClusters, a => encode a
  | createPool .., a | updatePoolInstances .., a | fetchPool .., a => encode a
  | poolDeletable .., a | clusterReferenced .., a | domainReferenced _, a => encode a
  | fetchPools _, a => encode a
  | createSubCluster .., a | updateSubCluster .., a | fetchSubCluster .., a => encode a
  | fetchSubClusters _, a => encode a
  | createCluster .., a | updateCluster .., a | rebindSubClusters .., a | fetchCluster .., a =>
    encode a
  | fetchClusters _, a => encode a
  | createDomain .., a => encode a
  | fetchDomains _, a => encode a
  | replaceRules .., a | fetchRules _, a => encode a
  | createCertificate _, a | setDefaultCertificate _, a => encode a
  | fetchCertificates, a => encode a
  | exportTopic .., a => encode a
  | latestVersion _, a => encode a
  | versionHistory _, a => encode a
  | deleteProduct _, _ | deleteBfeCluster _, _ | deletePool .., _ | deleteSubCluster .., _
  | deleteCluster .., _ | deleteDomain .., _ | deleteCertificate _, _ => .null

end Call
end FleetControl
