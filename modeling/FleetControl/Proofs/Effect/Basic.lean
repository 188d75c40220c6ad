import FleetControl.ControlPlane
import FleetControl.Proofs.LoadMatrix
import FleetControl.Proofs.Reads

/-!
What one call can do to the tables. Every call leaves them alone or makes one of the changes listed
here, and then what it checked before writing is true of the tables it started from. Invariants are
proved against this list and not against the programs of the managers.
-/

namespace FleetControl.Store

open Control

namespace Tables

def IsTarget (t : Tables) (product : ProductId) (name : String) (id : ClusterId) : Prop :=
  ∃ c, t.clusters.get? id = some c ∧ c.name = name ∧ c.productId = product

def IsBindablePool (t : Tables) (product : ProductId) (id : PoolId) : Prop :=
  ∃ pool, t.pools.get? id = some pool ∧ (pool.productId = product ∨ pool.isInfrastructure = true)

def IsReady (t : Tables) (ignoreReadiness : Bool) (s : SubCluster.Record) : Prop :=
  ignoreReadiness = true ∨ ∃ pool, t.pools.get? s.poolId = some pool ∧ pool.ready = true

def extendedMatrix (t : Tables) (bfe : String) (cluster : ClusterId) : LoadMatrix :=
  (((t.loadMatrices.get? cluster).map Prod.snd).getD .empty).insertRow bfe
    (LoadMatrix.defaultRow (t.boundNames cluster))

def shrunkMatrix (t : Tables) (bfe : String) (c : Cluster.Record) : Option (ProductId × LoadMatrix) :=
  (t.loadMatrices.get? c.id).map fun e =>
    if (e.2.row? bfe).isSome then (c.productId, e.2.eraseRow bfe) else e

end Tables

structure Bindable (ignoreReadiness : Bool) (t : Tables) (product : ProductId)
    (names : List String) (ids : List SubClusterId) : Prop where
  named : ∀ n ∈ names, ∃ i ∈ ids, ∃ s, t.subClusters.get? i = some s ∧ s.name = n
  free : ∀ i ∈ ids, ∃ s, t.subClusters.get? i = some s ∧ s.productId = product ∧ s.name ∈ names ∧
    s.clusterId = none ∧ t.IsReady ignoreReadiness s

theorem Bindable.not_mem {ignoreReadiness : Bool} {t : Tables} {p : ProductId} {names : List String}
    {ids : List SubClusterId} (hb : Bindable ignoreReadiness t p names ids) {i : SubClusterId}
    {s : SubCluster.Record} {k : ClusterId} (hs : t.subClusters.get? i = some s)
    (hk : s.clusterId = some k) : i ∉ ids := by
  intro hi
  obtain ⟨s', hs', -, -, hfree, -⟩ := hb.free i hi
  rw [hs] at hs'
  cases hs'
  rw [hk] at hfree
  cases hfree

def ResolvedBasic (t : Tables) (product : ProductId) (rule stored : BasicRule) : Prop :=
  stored = { rule with clusterId := stored.clusterId } ∧
    (Cluster.isReservedName rule.clusterName = true → stored.clusterId = none) ∧
    (Cluster.isReservedName rule.clusterName = false →
      ∃ id, stored.clusterId = some id ∧ t.IsTarget product rule.clusterName id)

def ResolvedAdvanced (t : Tables) (product : ProductId) (rule stored : AdvancedRule) : Prop :=
  stored = { rule with clusterId := stored.clusterId } ∧
    ∃ id, stored.clusterId = some id ∧ t.IsTarget product rule.clusterName id

/-- The tables before and after a call. -/
inductive Effect (ignoreReadiness : Bool) (t : Tables) : Call → Tables → Prop where
  | idle (c : Call) : Effect ignoreReadiness t c t
  | productCreated {d : Product.Draft} (valid : d.findings.refusal? = none)
      (fresh : ∀ {i p}, t.products.get? i = some p → p.name ≠ d.name) :
      Effect ignoreReadiness t (.createProduct d)
        { t with
          nextId := t.nextId + 1
          products := t.products.insert ⟨t.nextId⟩ (d.withId ⟨t.nextId⟩) }
  | productUpdated {p : Product} {change : Product.Change} (valid : change.findings.refusal? = none)
      (stored : t.products.get? p.id = some p) (ordinary : p.isBuiltin = false) :
      Effect ignoreReadiness t (.updateProduct p.name change)
        { t with products := t.products.insert p.id (change.apply p) }
  | productDeleted {p : Product} (stored : t.products.get? p.id = some p)
      (ordinary : p.isBuiltin = false)
      (noClusters : ∀ {i c}, t.clusters.get? i = some c → c.productId ≠ p.id)
      (noSubClusters : ∀ {i s}, t.subClusters.get? i = some s → s.productId ≠ p.id)
      (noPools : ∀ {i q}, t.pools.get? i = some q → q.productId ≠ p.id)
      (noDomains : ∀ {i d}, t.domains.get? i = some d → d.productId ≠ p.id) :
      Effect ignoreReadiness t (.deleteProduct p.name)
        { t with routeRules := t.routeRules.erase p.id, products := t.products.erase p.id }
  | poolCreated {p : Product} {proposal : Pool.Proposal} {name : String}
      (valid : proposal.findings.refusal? = none) (stored : t.products.get? p.id = some p)
      (qualified : Pool.qualify p.name proposal.name = .ok name)
      (sound : Pools.instancesRefusal? proposal.instances = none)
      (fresh : ∀ {i q}, t.pools.get? i = some q → q.name ≠ name) :
      Effect ignoreReadiness t (.createPool p.name proposal)
        { t with
          nextId := t.nextId + 1
          pools := t.pools.insert ⟨t.nextId⟩
            ⟨⟨t.nextId⟩, name, p.id, Pools.tagFor p, proposal.poolType, proposal.instances⟩ }
  | instancesUpdated {p : Product} {pool : Pool} {name : String} {instances : List Instance}
      (sound : Pools.instancesRefusal? instances = none)
      (storedProduct : t.products.get? p.id = some p)
      (qualified : Pool.qualify p.name name = .ok pool.name)
      (stored : t.pools.get? pool.id = some pool) (owned : pool.productId = p.id) :
      Effect ignoreReadiness t (.updatePoolInstances p.name name instances)
        { t with pools := t.pools.insert pool.id { pool with instances := instances } }
  | poolDeleted {p : Product} {pool : Pool} {name : String}
      (storedProduct : t.products.get? p.id = some p)
      (qualified : Pool.qualify p.name name = .ok pool.name)
      (stored : t.pools.get? pool.id = some pool) (owned : pool.productId = p.id)
      (noBfeClusters : ∀ {i b}, t.bfeClusters.get? i = some b → b.poolId ≠ pool.id)
      (noSubClusters : ∀ {i s}, t.subClusters.get? i = some s → s.poolId ≠ pool.id) :
      Effect ignoreReadiness t (.deletePool p.name name) { t with pools := t.pools.erase pool.id }
  | bfeClusterCreated {proposal : BfeCluster.Proposal} {pool : Pool}
      {loadMatrices : SortedMap ClusterId (ProductId × LoadMatrix)}
      (valid : proposal.findings.refusal? = none)
      (fresh : ∀ {i b}, t.bfeClusters.get? i = some b → b.name ≠ proposal.name)
      (stored : t.pools.get? pool.id = some pool) (named : pool.name = proposal.poolName)
      (infrastructure : pool.isInfrastructure = true)
      (extended : ∀ {i c}, t.clusters.get? i = some c →
        loadMatrices.get? i = some (c.productId, t.extendedMatrix proposal.name i))
      (kept : ∀ {i}, t.clusters.get? i = none → loadMatrices.get? i = t.loadMatrices.get? i) :
      Effect ignoreReadiness t (.createBfeCluster proposal)
        { t with
          nextId := t.nextId + 1
          bfeClusters := t.bfeClusters.insert ⟨t.nextId⟩
            ⟨⟨t.nextId⟩, proposal.name, pool.id, proposal.capacity, true⟩
          loadMatrices := loadMatrices }
  | bfeClusterDeleted {b : BfeCluster} {loadMatrices : SortedMap ClusterId (ProductId × LoadMatrix)}
      (stored : t.bfeClusters.get? b.id = some b)
      (shrunk : ∀ {i c}, t.clusters.get? i = some c →
        loadMatrices.get? i = t.shrunkMatrix b.name c)
      (kept : ∀ {i}, t.clusters.get? i = none → loadMatrices.get? i = t.loadMatrices.get? i) :
      Effect ignoreReadiness t (.deleteBfeCluster b.name)
        { t with bfeClusters := t.bfeClusters.erase b.id, loadMatrices := loadMatrices }
  | subClusterCreated {p : Product} {proposal : SubCluster.Proposal} {pool : PoolId}
      (valid : proposal.findings.refusal? = none) (stored : t.products.get? p.id = some p)
      (fresh : ∀ {i s}, t.subClusters.get? i = some s → s.productId = p.id → s.name ≠ proposal.name)
      (bindable : t.IsBindablePool p.id pool) :
      Effect ignoreReadiness t (.createSubCluster p.name proposal)
        { t with
          nextId := t.nextId + 1
          subClusters := t.subClusters.insert ⟨t.nextId⟩
            ⟨⟨t.nextId⟩, proposal.name, p.id, proposal.description, pool, none⟩ }
  | subClusterUpdated {p : Product} {s : SubCluster.Record} {change : SubCluster.Change}
      {pool : Option PoolId} (valid : change.findings.refusal? = none)
      (storedProduct : t.products.get? p.id = some p)
      (stored : t.subClusters.get? s.id = some s) (owned : s.productId = p.id)
      (moved : ∀ {q}, pool = some q → s.clusterId = none ∧ t.IsBindablePool p.id q) :
      Effect ignoreReadiness t (.updateSubCluster p.name s.name change)
        { t with
          subClusters := t.subClusters.insert s.id
            (SubCluster.Revision.apply ⟨pool, change.description⟩ s) }
  | subClusterDeleted {p : Product} {s : SubCluster.Record}
      (storedProduct : t.products.get? p.id = some p)
      (stored : t.subClusters.get? s.id = some s) (owned : s.productId = p.id)
      (free : s.clusterId = none) :
      Effect ignoreReadiness t (.deleteSubCluster p.name s.name)
        { t with subClusters := t.subClusters.erase s.id }
  | clusterCreated {p : Product} {proposal : Cluster.Proposal} {ids : List SubClusterId}
      {matrix : LoadMatrix} (valid : proposal.findings.refusal? = none)
      (unreserved : Cluster.isReservedName proposal.name = false)
      (sticky : proposal.stickySessions.refusal? = none)
      (nonempty : proposal.subClusters ≠ []) (distinct : proposal.subClusters.Nodup)
      (stored : t.products.get? p.id = some p)
      (fresh : ∀ {i c}, t.clusters.get? i = some c → c.name ≠ proposal.name)
      (bindable : Bindable ignoreReadiness t p.id proposal.subClusters ids)
      (chosen : matrix =
        proposal.scheduler.getD (LoadMatrix.defaultFor t.fleet proposal.subClusters))
      (fits : matrix.Fits t.fleet proposal.subClusters) :
      Effect ignoreReadiness t (.createCluster p.name proposal)
        { t with
          nextId := t.nextId + 1
          clusters := t.clusters.insert ⟨t.nextId⟩ ⟨⟨t.nextId⟩, proposal.name, p.id,
            proposal.description, proposal.basic, proposal.stickySessions,
            proposal.passiveHealthCheck⟩
          subClusters := (t.mount (some ⟨t.nextId⟩) ids).subClusters
          loadMatrices := t.loadMatrices.insert ⟨t.nextId⟩ (p.id, matrix) }
  | clusterUpdated {p : Product} {c : Cluster.Record} {change : Cluster.Change}
      {loadMatrices : SortedMap ClusterId (ProductId × LoadMatrix)}
      (valid : change.findings.refusal? = none)
      (sticky : change.stickySessions.bind StickySessions.refusal? = none)
      (storedProduct : t.products.get? p.id = some p)
      (stored : t.clusters.get? c.id = some c) (owned : c.productId = p.id)
      (kept : change.scheduler = none → loadMatrices = t.loadMatrices)
      (replaced : ∀ {m}, change.scheduler = some m → m.Fits t.fleet (t.boundNames c.id) ∧
        loadMatrices = t.loadMatrices.insert c.id (p.id, m)) :
      Effect ignoreReadiness t (.updateCluster p.name c.name change)
        { t with
          clusters := t.clusters.insert c.id (change.apply c)
          loadMatrices := loadMatrices }
  | rebound {p : Product} {c : Cluster.Record} {target : List String} {entry : ProductId × LoadMatrix}
      {removed added : List SubClusterId} {matrix : LoadMatrix} (nonempty : target ≠ [])
      (distinct : target.Nodup) (storedProduct : t.products.get? p.id = some p)
      (stored : t.clusters.get? c.id = some c) (owned : c.productId = p.id)
      (released : ∀ {i}, i ∈ removed ↔ ∃ s, t.subClusters.get? i = some s ∧
        s.clusterId = some c.id ∧ s.name ∉ target)
      (bindable : Bindable ignoreReadiness t p.id
        (Clusters.difference target (t.boundNames c.id)) added)
      (storedMatrix : t.loadMatrices.get? c.id = some entry)
      (drained : entry.2.rebind (Clusters.difference (t.boundNames c.id) target)
        (Clusters.difference target (t.boundNames c.id)) = .ok matrix)
      (fits : matrix.Fits t.fleet target) :
      Effect ignoreReadiness t (.rebindSubClusters p.name c.name target)
        { t with
          subClusters := ((t.mount none removed).mount (some c.id) added).subClusters
          loadMatrices := t.loadMatrices.insert c.id (p.id, matrix) }
  | clusterDeleted {p : Product} {c : Cluster.Record} {ids : List SubClusterId}
      (storedProduct : t.products.get? p.id = some p)
      (stored : t.clusters.get? c.id = some c) (owned : c.productId = p.id)
      (unrouted : ∀ {rules}, t.routeRules.get? p.id = some rules →
        rules.referencesCluster c.id = false)
      (released : ∀ {i}, i ∈ ids ↔ ∃ s, t.subClusters.get? i = some s ∧ s.clusterId = some c.id) :
      Effect ignoreReadiness t (.deleteCluster p.name c.name)
        { t with
          subClusters := (t.mount none ids).subClusters
          loadMatrices := t.loadMatrices.erase c.id
          clusters := t.clusters.erase c.id }
  | domainCreated {p : Product} {proposal : Domain.Proposal}
      (valid : proposal.findings.refusal? = none) (stored : t.products.get? p.id = some p)
      (clear : ∀ {i d}, t.domains.get? i = some d →
        Hostname.conflicts d.name (Hostname.normalize proposal.name) = false) :
      Effect ignoreReadiness t (.createDomain p.name proposal)
        { t with
          nextId := t.nextId + 1
          domains := t.domains.insert ⟨t.nextId⟩ ⟨⟨t.nextId⟩, Hostname.normalize proposal.name, p.id,
            proposal.usingAdvancedRedirect, proposal.usingAdvancedHsts⟩ }
  | domainDeleted {p : Product} {name : String} {d : Domain}
      (storedProduct : t.products.get? p.id = some p) (stored : t.domains.get? d.id = some d)
      (owned : d.productId = p.id) (named : d.name = Hostname.normalize name)
      (plain : d.usedByTlsPolicy = false)
      (unrouted : ∀ {i rules}, t.routeRules.get? i = some rules →
        rules.referencesHost d.name = false) :
      Effect ignoreReadiness t (.deleteDomain p.name name)
        { t with domains := t.domains.erase d.id }
  | rulesReplaced {p : Product} {rules resolved : RouteRules} (valid : rules.defect? = none)
      (stored : t.products.get? p.id = some p)
      (covered : ∀ r ∈ rules.basic, ∀ host ∈ r.hostNames, ∃ i d, t.domains.get? i = some d ∧
        d.productId = p.id ∧ Hostname.covers d.name host = true)
      (basic : List.Forall₂ (ResolvedBasic t p.id) rules.basic resolved.basic)
      (advanced : List.Forall₂ (ResolvedAdvanced t p.id) rules.advanced resolved.advanced) :
      Effect ignoreReadiness t (.replaceRules p.name rules)
        { t with routeRules := t.routeRules.insert p.id resolved }
  | certificateCreated {draft : Certificate.Draft} {certificates : SortedMap CertificateId Certificate}
      (valid : draft.findings.refusal? = none)
      (fresh : ∀ {i c}, t.certificates.get? i = some c → c.name ≠ draft.name)
      (marked : certificates =
        let added := t.certificates.insert ⟨t.nextId⟩
          ({ draft with isDefault := false }.withId ⟨t.nextId⟩)
        if t.certificates.isEmpty || draft.isDefault then
          added.map fun _ c => { c with isDefault := c.id = ⟨t.nextId⟩ }
        else added) :
      Effect ignoreReadiness t (.createCertificate draft)
        { t with nextId := t.nextId + 1, certificates := certificates }
  | defaultCertificateSet {c : Certificate} (stored : t.certificates.get? c.id = some c) :
      Effect ignoreReadiness t (.setDefaultCertificate c.name)
        { t with
          certificates := t.certificates.map fun _ x => { x with isDefault := x.id = c.id } }
  | certificateDeleted {c : Certificate} (stored : t.certificates.get? c.id = some c)
      (spare : c.isDefault = true → t.certificates.size ≤ 1) :
      Effect ignoreReadiness t (.deleteCertificate c.name)
        { t with certificates := t.certificates.erase c.id }
  | exported {topic : String} {last : Option String} (row : ConfigVersion) :
      Effect ignoreReadiness t (.exportTopic topic last) { t with ledger := t.ledger ++ [row] }

/-! Runs of operations. -/

namespace Tables

variable {t : Tables} {α : Type} {P : Tables → Prop}

theorem perform_update_cases {w : Work α} (same : P t)
    (done : ∀ a t', Work.Yields answer t w a t' → P t') : P (t.perform (.update w)).2 := by
  rw [perform]
  split
  · rename_i a t' hrun
    exact done a t' hrun
  · exact same

theorem perform_guarded_cases {refusal : Option Fault} {op : Operation α} (same : P t)
    (next : refusal = none → P (t.perform op).2) : P (t.perform (.guarded refusal op)).2 := by
  cases refusal with
  | some f => exact same
  | none => exact next rfl

theorem perform_update_of_yields {w : Work α} {a : α} {t' : Tables}
    (hw : Work.Yields answer t w a t') : t.perform (.update w) = (.ok a, t') := by
  rw [Work.Yields] at hw
  rw [perform, hw]

theorem perform_query_of_yields {w : Work α} {a : α} (hw : Work.Yields answer t w a t) :
    t.perform (.query w) = (.ok a, t) := by
  rw [Work.Yields] at hw
  rw [perform, hw]

theorem yields_of_perform_update {w : Work α} {a : α} (h : (t.perform (.update w)).1 = .ok a) :
    ∃ t', Work.Yields answer t w a t' := by
  rw [perform] at h
  split at h
  · rename_i b t' hrun
    cases h
    exact ⟨t', hrun⟩
  · cases h

theorem fails_of_perform_update {w : Work α} {f : Fault}
    (h : (t.perform (.update w)).1 = .error f) : Work.Fails answer t w f := by
  rw [perform] at h
  rw [Work.Fails]
  split at h
  · cases h
  · rename_i g t' hrun
    rw [hrun]
    exact h

theorem change_ok {kind : Kind} {resource : String} {table : SortedMap (Id kind) α} {id : Id kind}
    {write : α → Tables} {t' : Tables} (h : change resource table id t write = (.ok (), t')) :
    ∃ a, table.get? id = some a ∧ t' = write a := by
  rw [change] at h
  split at h
  · cases h
    exact ⟨_, ‹_›, rfl⟩
  · cases h

end Tables
end FleetControl.Store
