import FleetControl.BfeCluster
import FleetControl.Certificate
import FleetControl.Domain
import FleetControl.RouteRules
import FleetControl.Version

/-!
Filters of the store's reads. A member that is absent admits everything.
-/

namespace FleetControl.Store

structure ProductFilter where
  id : Option ProductId := none
  name : Option String := none

def ProductFilter.admits (f : ProductFilter) (p : Product) : Bool :=
  f.id.all (p.id = ·) && f.name.all (p.name = ·)

structure PoolFilter where
  id : Option PoolId := none
  ids : Option (List PoolId) := none
  name : Option String := none
  productId : Option ProductId := none

def PoolFilter.admits (f : PoolFilter) (p : Pool) : Bool :=
  f.id.all (p.id = ·) && f.ids.all (·.contains p.id) && f.name.all (p.name = ·) &&
  f.productId.all (p.productId = ·)

structure BfeClusterFilter where
  name : Option String := none
  poolId : Option PoolId := none

def BfeClusterFilter.admits (f : BfeClusterFilter) (b : BfeCluster) : Bool :=
  f.name.all (b.name = ·) && f.poolId.all (b.poolId = ·)

structure SubClusterFilter where
  id : Option SubClusterId := none
  productId : Option ProductId := none
  names : Option (List String) := none
  clusterId : Option ClusterId := none
  poolId : Option PoolId := none

def SubClusterFilter.admits (f : SubClusterFilter) (s : SubCluster.Record) : Bool :=
  f.id.all (s.id = ·) && f.productId.all (s.productId = ·) && f.names.all (·.contains s.name) &&
  f.clusterId.all (s.clusterId = some ·) && f.poolId.all (s.poolId = ·)

structure ClusterFilter where
  id : Option ClusterId := none
  name : Option String := none
  productId : Option ProductId := none

def ClusterFilter.admits (f : ClusterFilter) (c : Cluster.Record) : Bool :=
  f.id.all (c.id = ·) && f.name.all (c.name = ·) && f.productId.all (c.productId = ·)

structure DomainFilter where
  productId : Option ProductId := none
  name : Option String := none

def DomainFilter.admits (f : DomainFilter) (d : Domain) : Bool :=
  f.productId.all (d.productId = ·) && f.name.all (d.name = ·)

structure CertificateFilter where
  name : Option String := none
  isDefault : Option Bool := none

def CertificateFilter.admits (f : CertificateFilter) (c : Certificate) : Bool :=
  f.name.all (c.name = ·) && f.isDefault.all (c.isDefault = ·)

end FleetControl.Store
