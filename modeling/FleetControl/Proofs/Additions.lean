import FleetControl.Proofs.Consistent

/-!
What creations add. A call that takes an id adds one record under it and what comes with the record:
a cluster mounts its sub-clusters and gets a matrix, a BFE cluster gets a row in every matrix, and a
certificate may get the default mark. What is added is fixed by the call and by the records that the
call names, so it is the same after other creations.
-/

namespace FleetControl.Store

open Control

inductive Addition where
  | product (draft : Product.Draft)
  | pool (draft : Pool.Draft)
  | bfeCluster (draft : BfeCluster.Draft)
  | subCluster (draft : SubCluster.Draft)
  | cluster (draft : Cluster.Draft) (names : List String) (matrix : Option LoadMatrix)
  | domain (draft : Domain.Draft)
  | certificate (draft : Certificate.Draft)

namespace Addition

/-! The record, for the table it belongs to. -/

@[simp] def product? : Addition → Option Product.Draft
  | product d => some d
  | _ => none

@[simp] def pool? : Addition → Option Pool.Draft
  | pool d => some d
  | _ => none

@[simp] def bfeCluster? : Addition → Option BfeCluster.Draft
  | bfeCluster d => some d
  | _ => none

@[simp] def subCluster? : Addition → Option SubCluster.Draft
  | subCluster d => some d
  | _ => none

@[simp] def cluster? : Addition → Option Cluster.Draft
  | cluster d _ _ => some d
  | _ => none

@[simp] def domain? : Addition → Option Domain.Draft
  | domain d => some d
  | _ => none

@[simp] def certificate? : Addition → Option Certificate.Draft
  | certificate d => some d
  | _ => none

/-! What comes with the record. -/

@[simp] def mounts : Addition → SubCluster.Record → Bool
  | cluster d names _, s => s.productId = d.productId && names.contains s.name
  | _, _ => false

@[simp] def matrix? (t : Tables) : Addition → Option (ProductId × LoadMatrix)
  | cluster d names matrix => some (d.productId, matrix.getD (.defaultFor t.fleet names))
  | _ => none

@[simp] def extend (t : Tables) (cluster : ClusterId) (e : ProductId × LoadMatrix) :
    Addition → ProductId × LoadMatrix
  | bfeCluster d => (e.1, e.2.insertRow d.name (LoadMatrix.defaultRow (t.boundNames cluster)))
  | _ => e

@[simp] def marks (t : Tables) : Addition → Bool
  | certificate d => t.certificates.isEmpty || d.isDefault
  | _ => false

theorem extend_fst (t : Tables) (k : ClusterId) (e : ProductId × LoadMatrix) (x : Addition) :
    (x.extend t k e).1 = e.1 := by
  cases x <;> rfl

theorem mounts_mounted (x : Addition) (s : SubCluster.Record) (cluster : Option ClusterId) :
    x.mounts { s with clusterId := cluster } = x.mounts s := by
  cases x <;> rfl

def mount (x : Addition) (cluster : ClusterId) (s : SubCluster.Record) : SubCluster.Record :=
  if x.mounts s then { s with clusterId := some cluster } else s

theorem mount_of_mounts {x : Addition} {s : SubCluster.Record} (h : x.mounts s = true)
    (cluster : ClusterId) : x.mount cluster s = { s with clusterId := some cluster } := if_pos h

theorem mount_of_not_mounts {x : Addition} {s : SubCluster.Record} (h : x.mounts s = false)
    (cluster : ClusterId) : x.mount cluster s = s := by
  rw [mount, h]
  rfl

theorem mount_key (x : Addition) (cluster : ClusterId) (s : SubCluster.Record) :
    subClusterKey (x.mount cluster s) = subClusterKey s := by
  rw [mount]
  split <;> rfl

end Addition

namespace Tables

def add (t : Tables) (x : Addition) : Tables where
  nextId := t.nextId + 1
  products := t.products.insert? ⟨t.nextId⟩ (x.product?.map (·.withId ⟨t.nextId⟩))
  pools := t.pools.insert? ⟨t.nextId⟩ (x.pool?.map (·.withId ⟨t.nextId⟩))
  bfeClusters := t.bfeClusters.insert? ⟨t.nextId⟩ (x.bfeCluster?.map (·.withId ⟨t.nextId⟩))
  subClusters :=
    (t.subClusters.map fun _ s => x.mount ⟨t.nextId⟩ s).insert? ⟨t.nextId⟩
      (x.subCluster?.map (·.withId ⟨t.nextId⟩))
  clusters := t.clusters.insert? ⟨t.nextId⟩ (x.cluster?.map (·.withId ⟨t.nextId⟩))
  loadMatrices := (t.loadMatrices.map fun k e => x.extend t k e).insert? ⟨t.nextId⟩ (x.matrix? t)
  domains := t.domains.insert? ⟨t.nextId⟩ (x.domain?.map (·.withId ⟨t.nextId⟩))
  routeRules := t.routeRules
  certificates :=
    (t.certificates.map fun _ c =>
      if x.marks t then { c with isDefault := false } else c).insert? ⟨t.nextId⟩
      (x.certificate?.map fun d => { d with isDefault := x.marks t }.withId ⟨t.nextId⟩)
  ledger := t.ledger

@[simp] theorem nextId_add (t : Tables) (x : Addition) : (t.add x).nextId = t.nextId + 1 := rfl

def AreFree (t : Tables) (product : ProductId) (names : List String) : Prop :=
  ∀ n ∈ names, ∃ i s, t.subClusters.get? i = some s ∧ s.productId = product ∧ s.name = n ∧
    s.clusterId = none

def bindableName (product pool : String) : String :=
  if pool.toList.contains '.' then pool else product ++ "." ++ pool

/-- What a call is to add, if all that it names is there. -/
inductive Adds (t : Tables) : Call → Addition → Prop where
  | product (d : Product.Draft) : Adds t (.createProduct d) (.product d)
  | pool {p : Product} {product name : String} {proposal : Pool.Proposal}
      (stored : t.products.get? p.id = some p) (named : p.name = product)
      (qualified : Pool.qualify product proposal.name = .ok name) :
      Adds t (.createPool product proposal)
        (.pool ⟨name, p.id, Pools.tagFor p, proposal.poolType, proposal.instances⟩)
  | bfeCluster {pool : Pool} {proposal : BfeCluster.Proposal}
      (stored : t.pools.get? pool.id = some pool) (named : pool.name = proposal.poolName) :
      Adds t (.createBfeCluster proposal)
        (.bfeCluster ⟨proposal.name, pool.id, proposal.capacity, true⟩)
  | subCluster {p : Product} {pool : Pool} {product : String} {proposal : SubCluster.Proposal}
      (stored : t.products.get? p.id = some p) (named : p.name = product)
      (storedPool : t.pools.get? pool.id = some pool)
      (namedPool : pool.name = bindableName product proposal.poolName) :
      Adds t (.createSubCluster product proposal)
        (.subCluster ⟨proposal.name, p.id, proposal.description, pool.id⟩)
  | cluster {p : Product} {product : String} {proposal : Cluster.Proposal}
      (stored : t.products.get? p.id = some p) (named : p.name = product)
      (distinct : proposal.subClusters.Nodup) (free : t.AreFree p.id proposal.subClusters)
      (fits : (proposal.scheduler.getD (.defaultFor t.fleet proposal.subClusters)).Fits t.fleet
        proposal.subClusters) :
      Adds t (.createCluster product proposal)
        (.cluster ⟨proposal.name, p.id, proposal.description, proposal.basic,
          proposal.stickySessions, proposal.passiveHealthCheck⟩ proposal.subClusters
          proposal.scheduler)
  | domain {p : Product} {product : String} {proposal : Domain.Proposal}
      (stored : t.products.get? p.id = some p) (named : p.name = product) :
      Adds t (.createDomain product proposal)
        (.domain ⟨Hostname.normalize proposal.name, p.id, proposal.usingAdvancedRedirect,
          proposal.usingAdvancedHsts⟩)
  | certificate (d : Certificate.Draft) : Adds t (.createCertificate d) (.certificate d)

variable {t t' : Tables} {ignoreReadiness : Bool} {c : Call} {x y : Addition}

/-! Calls that create add what they are to add. -/

theorem mem_ids_iff (hnamed : Named t) {p : ProductId} {names : List String}
    {ids : List SubClusterId} (hb : Bindable ignoreReadiness t p names ids) {i : SubClusterId}
    {s : SubCluster.Record} (hs : t.subClusters.get? i = some s) :
    i ∈ ids ↔ s.productId = p ∧ s.name ∈ names := by
  constructor
  · intro hi
    obtain ⟨s', hs', howner, hname, -⟩ := hb.free i hi
    rw [hs] at hs'
    cases hs'
    exact ⟨howner, hname⟩
  · rintro ⟨howner, hname⟩
    obtain ⟨j, hj, s', hs', hname'⟩ := hb.named s.name hname
    obtain ⟨s'', hs'', howner', -⟩ := hb.free j hj
    rw [hs'] at hs''
    cases hs''
    have hkey : subClusterKey s = subClusterKey s' := Prod.ext (howner.trans howner'.symm) hname'.symm
    rwa [hnamed.subClusters i j s s' hs hs' hkey]

theorem areFree_of_bindable {p : ProductId} {names : List String} {ids : List SubClusterId}
    (hb : Bindable ignoreReadiness t p names ids) : t.AreFree p names := by
  intro n hn
  obtain ⟨i, hi, s, hs, hname⟩ := hb.named n hn
  obtain ⟨s', hs', howner, -, hfree, -⟩ := hb.free i hi
  rw [hs] at hs'
  cases hs'
  exact ⟨i, s, hs, howner, hname, hfree⟩

theorem mount_eq_map (hnamed : Named t) (d : Cluster.Draft) (matrix : Option LoadMatrix)
    {names : List String} {ids : List SubClusterId}
    (hb : Bindable ignoreReadiness t d.productId names ids) (k : ClusterId) :
    (t.mount (some k) ids).subClusters =
      t.subClusters.map fun _ s => (Addition.cluster d names matrix).mount k s := by
  refine SortedMap.ext fun i => ?_
  rw [get?_mount, SortedMap.get?_map]
  cases hs : t.subClusters.get? i with
  | none => rfl
  | some s =>
    rw [Option.map_some, Option.map_some]
    simp only [mem_ids_iff hnamed hb hs, Addition.mount, Addition.mounts, Bool.and_eq_true,
      decide_eq_true_eq, List.contains_iff_mem]

theorem extended_eq_map (hb : Balanced t) {d : BfeCluster.Draft}
    {ms : SortedMap ClusterId (ProductId × LoadMatrix)}
    (extended : ∀ {i c}, t.clusters.get? i = some c →
      ms.get? i = some (c.productId, t.extendedMatrix d.name i))
    (kept : ∀ {i}, t.clusters.get? i = none → ms.get? i = t.loadMatrices.get? i) :
    ms = t.loadMatrices.map fun k e => (Addition.bfeCluster d).extend t k e := by
  refine SortedMap.ext fun k => ?_
  rw [SortedMap.get?_map]
  cases hk : t.clusters.get? k with
  | none =>
    rw [kept hk]
    cases hm : t.loadMatrices.get? k with
    | none => rfl
    | some e =>
      obtain ⟨r, hr, -⟩ := (hb k e.1).1 ⟨e.2, hm⟩
      rw [hk] at hr
      cases hr
  | some r =>
    obtain ⟨m, hm⟩ := (hb k r.productId).2 ⟨r, hk, rfl⟩
    rw [extended hk, extendedMatrix, hm, Option.map_some, Option.map_some, Option.getD_some,
      Addition.extend]

theorem marked_eq_map (hn : t.Numbered) (d : Certificate.Draft) :
    (let added := t.certificates.insert ⟨t.nextId⟩ ({ d with isDefault := false }.withId ⟨t.nextId⟩)
      if t.certificates.isEmpty || d.isDefault then
        added.map fun _ c => { c with isDefault := c.id = ⟨t.nextId⟩ }
      else added) = (t.add (.certificate d)).certificates := by
  refine SortedMap.ext fun i => ?_
  simp only [add, Addition.marks, Addition.certificate?, Option.map_some, SortedMap.insert?]
  by_cases hmark : (t.certificates.isEmpty || d.isDefault) = true
  · simp only [hmark, if_true, SortedMap.get?_map, SortedMap.get?_insert]
    by_cases hi : i = ⟨t.nextId⟩
    · simp [hi, Certificate.Draft.withId]
    · rw [if_neg hi, if_neg hi]
      cases hc : t.certificates.get? i with
      | none => rfl
      | some c =>
        have hown := hn.certificates.own hc
        simp [hown, hi]
  · simp [hmark, SortedMap.get?_insert]

def AddsIfNew (t : Tables) (c : Call) (t' : Tables) : Prop :=
  t.nextId < t'.nextId → ∃ x, t.Adds c x ∧ t' = t.add x

theorem addsIfNew_same (t : Tables) (c : Call) : t.AddsIfNew c t :=
  fun hnew => absurd hnew (Int.lt_irrefl _)

theorem effect_adds (hc : Consistent t) (he : Effect ignoreReadiness t c t')
    (hpool : ∀ p proposal, c ≠ .createSubCluster p proposal) : t.AddsIfNew c t' := by
  intro hnew
  cases he with
  | @productCreated d =>
    refine ⟨_, .product d, ?_⟩
    simp [add, SortedMap.insert?, SortedMap.map_id, Addition.mount]
  | poolCreated _ stored qualified =>
    refine ⟨_, .pool stored rfl qualified, ?_⟩
    simp [add, SortedMap.insert?, SortedMap.map_id, Addition.mount, Pool.Draft.withId]
  | @bfeClusterCreated proposal pool _ _ _ stored named _ extended kept =>
    refine ⟨_, .bfeCluster stored named, ?_⟩
    rw [extended_eq_map (d := ⟨proposal.name, pool.id, proposal.capacity, true⟩) hc.intact.balanced
      extended kept]
    simp [add, SortedMap.insert?, SortedMap.map_id, Addition.mount, BfeCluster.Draft.withId]
  | subClusterCreated => exact absurd rfl (hpool _ _)
  | @clusterCreated p proposal ids _ _ _ _ _ distinct stored _ bindable chosen fits =>
    refine ⟨_, .cluster stored rfl distinct (areFree_of_bindable bindable) (chosen ▸ fits), ?_⟩
    have hmount := mount_eq_map hc.named ⟨proposal.name, p.id, proposal.description, proposal.basic,
      proposal.stickySessions, proposal.passiveHealthCheck⟩ proposal.scheduler bindable ⟨t.nextId⟩
    rw [hmount, chosen]
    simp [add, SortedMap.insert?, SortedMap.map_id, Addition.mount, Cluster.Draft.withId]
  | domainCreated _ stored =>
    refine ⟨_, .domain stored rfl, ?_⟩
    simp [add, SortedMap.insert?, SortedMap.map_id, Addition.mount, Domain.Draft.withId]
  | @certificateCreated d _ _ _ marked =>
    refine ⟨_, .certificate d, ?_⟩
    rw [marked, marked_eq_map hc.numbered]
    simp [add, SortedMap.insert?, SortedMap.map_id, Addition.mount]
  | _ => exact absurd hnew (Int.lt_irrefl _)

theorem requireBindablePool_stored (hn : t.Numbered) {p : Product} {name : String} {pool : Pool}
    (hw : Work.Yields answer t (SubClusters.requireBindablePool p name) pool t') :
    t' = t ∧ t.pools.get? pool.id = some pool ∧ pool.name = bindableName p.name name := by
  simp only [SubClusters.requireBindablePool, Work.yields_bind, Work.yields_refuseIf,
    Work.yields_pure] at hw
  obtain ⟨found, _, hfound, _, _, ⟨-, rfl⟩, rfl, rfl⟩ := hw
  exact requirePool_yields hn hfound

/-- The effect of the call does not tell which pool was named, the call itself does. -/
theorem createSubCluster_adds (hn : t.Numbered) (product : String) (proposal : SubCluster.Proposal) :
    t.AddsIfNew (.createSubCluster product proposal)
      (t.perform (SubClusters.create product proposal)).2 := by
  refine perform_guarded_cases (addsIfNew_same t _) fun _ =>
    perform_update_cases (addsIfNew_same t _) fun s t' hw _ => ?_
  simp only [Work.yields_bind, Work.yields_ask, Work.yields_refuseIf, Work.yields_pure] at hw
  obtain ⟨p, _, hp, same, _, hsame, _, _, ⟨-, rfl⟩, pool, _, hpool, record, _, hcreate, _, rfl⟩ := hw
  obtain ⟨rfl, hstored, rfl⟩ := requireProduct_yields hn hp
  cases hsame
  obtain ⟨rfl, hstoredPool, hnamed⟩ := requireBindablePool_stored hn hpool
  cases hcreate
  refine ⟨_, .subCluster hstored rfl hstoredPool hnamed, ?_⟩
  simp [add, SortedMap.insert?, SortedMap.map_id, Addition.mount, SubCluster.Draft.withId]

theorem call_adds (hc : Consistent t) (settings : ControlSettings) (now : Instant) (c : Call) :
    t.AddsIfNew c (t.after (.call settings now c)) := by
  by_cases hpool : ∀ p proposal, c ≠ .createSubCluster p proposal
  · exact effect_adds hc (call_effect hc.numbered settings now c) hpool
  · simp only [ne_eq, not_forall, not_not] at hpool
    obtain ⟨p, proposal, rfl⟩ := hpool
    exact createSubCluster_adds hc.numbered p proposal

/-! What is there stays there. -/

theorem get?_products_add (hn : t.Numbered) {i : ProductId} {p : Product}
    (hp : t.products.get? i = some p) (x : Addition) : (t.add x).products.get? i = some p :=
  hn.products.get?_insert?_next hp _

theorem get?_pools_add (hn : t.Numbered) {i : PoolId} {q : Pool}
    (hq : t.pools.get? i = some q) (x : Addition) : (t.add x).pools.get? i = some q :=
  hn.pools.get?_insert?_next hq _

theorem get?_bfeClusters_add (hn : t.Numbered) {i : BfeClusterId} {b : BfeCluster}
    (hb : t.bfeClusters.get? i = some b) (x : Addition) : (t.add x).bfeClusters.get? i = some b :=
  hn.bfeClusters.get?_insert?_next hb _

theorem get?_bfeClusters_add_next {draft : BfeCluster.Draft} (hx : x.bfeCluster? = some draft) :
    (t.add x).bfeClusters.get? ⟨t.nextId⟩ = some (draft.withId ⟨t.nextId⟩) := by
  rw [add, hx]
  exact SortedMap.get?_insert_self _ _ _

theorem product_unique (hn : t.Numbered) (hnamed : Named (t.add y)) {p q : Product}
    (hp : t.products.get? p.id = some p) (hq : (t.add y).products.get? q.id = some q)
    (hname : q.name = p.name) : q = p := by
  have hp' := get?_products_add hn hp y
  have hid := hnamed.products q.id p.id q p hq hp' hname
  rw [hid, hp'] at hq
  exact (Option.some.inj hq).symm

theorem pool_unique (hn : t.Numbered) (hnamed : Named (t.add y)) {p q : Pool}
    (hp : t.pools.get? p.id = some p) (hq : (t.add y).pools.get? q.id = some q)
    (hname : q.name = p.name) : q = p := by
  have hp' := get?_pools_add hn hp y
  have hid := hnamed.pools q.id p.id q p hq hp' hname
  rw [hid, hp'] at hq
  exact (Option.some.inj hq).symm

theorem Adds.unique (h : t.Adds c x) (hn : t.Numbered) (hnamed : Named (t.add y)) {x' : Addition}
    (h' : (t.add y).Adds c x') : x' = x := by
  cases h with
  | product d =>
    cases h'
    rfl
  | pool stored named qualified =>
    cases h' with
    | pool stored' named' qualified' =>
      obtain rfl := product_unique hn hnamed stored stored' (named'.trans named.symm)
      rw [qualified] at qualified'
      cases qualified'
      rfl
  | bfeCluster stored named =>
    cases h' with
    | bfeCluster stored' named' =>
      obtain rfl := pool_unique hn hnamed stored stored' (named'.trans named.symm)
      rfl
  | subCluster stored named storedPool namedPool =>
    cases h' with
    | subCluster stored' named' storedPool' namedPool' =>
      obtain rfl := product_unique hn hnamed stored stored' (named'.trans named.symm)
      obtain rfl := pool_unique hn hnamed storedPool storedPool' (namedPool'.trans namedPool.symm)
      rfl
  | cluster stored named =>
    cases h' with
    | cluster stored' named' =>
      obtain rfl := product_unique hn hnamed stored stored' (named'.trans named.symm)
      rfl
  | domain stored named =>
    cases h' with
    | domain stored' named' =>
      obtain rfl := product_unique hn hnamed stored stored' (named'.trans named.symm)
      rfl
  | certificate d =>
    cases h'
    rfl

structure Holds (t : Tables) (x : Addition) : Prop where
  pool : ∀ d, x.pool? = some d → t.products.contains d.productId = true
  bfeCluster : ∀ d, x.bfeCluster? = some d → t.pools.contains d.poolId = true
  subCluster : ∀ d, x.subCluster? = some d →
    t.products.contains d.productId = true ∧ t.pools.contains d.poolId = true
  cluster : ∀ d, x.cluster? = some d → t.products.contains d.productId = true
  domain : ∀ d, x.domain? = some d → t.products.contains d.productId = true

theorem Adds.holds (h : t.Adds c x) : t.Holds x := by
  cases h with
  | product d => constructor <;> rintro _ ⟨⟩
  | pool stored =>
    constructor <;> rintro _ ⟨⟩
    exact contains_of_stored stored
  | bfeCluster stored =>
    constructor <;> rintro _ ⟨⟩
    exact SortedMap.contains_iff.2 ⟨_, stored⟩
  | subCluster stored _ storedPool =>
    constructor <;> rintro _ ⟨⟩
    exact ⟨contains_of_stored stored, SortedMap.contains_iff.2 ⟨_, storedPool⟩⟩
  | cluster stored =>
    constructor <;> rintro _ ⟨⟩
    exact contains_of_stored stored
  | domain stored =>
    constructor <;> rintro _ ⟨⟩
    exact contains_of_stored stored
  | certificate d => constructor <;> rintro _ ⟨⟩

theorem Adds.exists_free (h : t.Adds c x) {s : SubCluster.Record} (hs : x.mounts s = true) :
    ∃ i s', t.subClusters.get? i = some s' ∧ subClusterKey s' = subClusterKey s ∧
      s'.clusterId = none := by
  cases h with
  | cluster stored named distinct free =>
    simp only [Addition.mounts, Bool.and_eq_true, decide_eq_true_eq, List.contains_iff_mem] at hs
    obtain ⟨i, s', hs', howner, hname, hfree⟩ := free s.name hs.2
    exact ⟨i, s', hs', Prod.ext (howner.trans hs.1.symm) hname, hfree⟩
  | _ => cases hs

theorem Adds.free (h : t.Adds c x) (hnamed : Named t) {i : SubClusterId} {s : SubCluster.Record}
    (hs : t.subClusters.get? i = some s) (hmounts : x.mounts s = true) : s.clusterId = none := by
  obtain ⟨j, s', hs', hkey, hfree⟩ := h.exists_free hmounts
  have hid := hnamed.subClusters j i s' s hs' hs hkey
  rw [hid, hs] at hs'
  cases hs'
  exact hfree

theorem Adds.fits {d : Cluster.Draft} {names : List String} {m : Option LoadMatrix}
    (h : t.Adds c (.cluster d names m)) : (m.getD (.defaultFor t.fleet names)).Fits t.fleet names := by
  cases h with
  | cluster _ _ _ _ fits => exact fits

/-! What is marked after an addition. -/

def defaultNames (t : Tables) : List String :=
  (t.certificates.values.filter (·.isDefault)).map (·.name)

theorem Named.isDefault_iff (hnamed : Named t) {i : CertificateId} {x : Certificate}
    (hx : t.certificates.get? i = some x) : x.isDefault = true ↔ x.name ∈ t.defaultNames := by
  rw [defaultNames, List.mem_map]
  constructor
  · intro hdefault
    exact ⟨x, List.mem_filter.2 ⟨SortedMap.mem_values.2 ⟨i, hx⟩, hdefault⟩, rfl⟩
  · rintro ⟨x', hx', hname⟩
    obtain ⟨hmem, hdefault⟩ := List.mem_filter.1 hx'
    obtain ⟨j, hget⟩ := SortedMap.mem_values.1 hmem
    have hid := hnamed.certificates j i x' x hget hx hname
    rw [hid, hx] at hget
    cases hget
    exact hdefault

def unmarked (t : Tables) : SortedMap CertificateId Certificate :=
  t.certificates.map fun _ c => { c with isDefault := false }

theorem unmarked_add (t : Tables) (x : Addition) :
    (t.add x).unmarked = t.unmarked.insert? ⟨t.nextId⟩
      (x.certificate?.map fun d => { d with isDefault := false }.withId ⟨t.nextId⟩) := by
  rw [unmarked, add, SortedMap.map_insert?, Option.map_map]
  refine congrArg (fun m : SortedMap CertificateId Certificate => m.insert? _ _)
    (SortedMap.ext fun i => ?_)
  rw [unmarked, SortedMap.get?_map, SortedMap.get?_map, SortedMap.get?_map, Option.map_map]
  refine congrArg (fun f => Option.map f _) (funext fun c => ?_)
  rw [Function.comp]
  split <;> rfl

/-! What is mounted after an addition. -/

theorem get?_subClusters_add (x : Addition) {i : SubClusterId} (hi : i ≠ ⟨t.nextId⟩) :
    (t.add x).subClusters.get? i = (t.subClusters.get? i).map (x.mount ⟨t.nextId⟩) := by
  rw [add, SortedMap.get?_insert?, if_neg hi, SortedMap.get?_map]

theorem get?_subClusters_add_old (hn : t.Numbered) (x : Addition) {i : SubClusterId}
    {s : SubCluster.Record} (hs : t.subClusters.get? i = some s) :
    (t.add x).subClusters.get? i = some (x.mount ⟨t.nextId⟩ s) := by
  have hi : i ≠ ⟨t.nextId⟩ := by
    rintro rfl
    exact Int.lt_irrefl _ (hn.subClusters.below hs)
  rw [get?_subClusters_add x hi, hs, Option.map_some]

theorem get?_subClusters_add_next (hn : t.Numbered) (x : Addition) :
    (t.add x).subClusters.get? ⟨t.nextId⟩ = x.subCluster?.map (·.withId ⟨t.nextId⟩) := by
  rw [add, SortedMap.get?_insert?, if_pos rfl, SortedMap.get?_map, hn.subClusters.get?_next,
    Option.map_none, Option.or_none]

theorem boundNames_add (hc : Consistent t) (hcx : Consistent (t.add x)) (h : t.Adds c x)
    {k : ClusterId} (hk : k ≠ ⟨t.nextId⟩) : ((t.add x).boundNames k).Perm (t.boundNames k) := by
  refine (List.perm_ext_iff_of_nodup (nodup_boundNames hcx.numbered hcx.named hcx.intact.mounted k)
    (nodup_boundNames hc.numbered hc.named hc.intact.mounted k)).2 fun n => ?_
  rw [hcx.numbered.mem_boundNames, hc.numbered.mem_boundNames]
  constructor
  · rintro ⟨i, s, hs, hsk, rfl⟩
    by_cases hi : i = ⟨t.nextId⟩
    · rw [hi, get?_subClusters_add_next hc.numbered, Option.map_eq_some_iff] at hs
      obtain ⟨draft, -, rfl⟩ := hs
      cases hsk
    · rw [get?_subClusters_add x hi, Option.map_eq_some_iff] at hs
      obtain ⟨s₀, hs₀, rfl⟩ := hs
      cases hmounts : x.mounts s₀ with
      | true =>
        rw [Addition.mount_of_mounts hmounts] at hsk
        exact absurd (Option.some.inj hsk).symm hk
      | false =>
        rw [Addition.mount_of_not_mounts hmounts] at hsk ⊢
        exact ⟨i, s₀, hs₀, hsk, rfl⟩
  · rintro ⟨i, s, hs, hsk, rfl⟩
    have hmounts : x.mounts s = false := by
      rw [Bool.eq_false_iff]
      intro hmounts
      rw [h.free hc.named hs hmounts] at hsk
      cases hsk
    have hs' := get?_subClusters_add_old hc.numbered x hs
    rw [Addition.mount_of_not_mounts hmounts] at hs'
    exact ⟨i, s, hs', hsk, rfl⟩

theorem boundNames_add_next (hc : Consistent t) {d : Cluster.Draft} {names : List String}
    {m : Option LoadMatrix} (hcx : Consistent (t.add (.cluster d names m)))
    (h : t.Adds c (.cluster d names m)) :
    ((t.add (.cluster d names m)).boundNames ⟨t.nextId⟩).Perm names := by
  cases h with
  | cluster stored named distinct free =>
    refine (List.perm_ext_iff_of_nodup
      (nodup_boundNames hcx.numbered hcx.named hcx.intact.mounted _) distinct).2 fun n => ?_
    rw [hcx.numbered.mem_boundNames]
    constructor
    · rintro ⟨i, s, hs, hsk, rfl⟩
      by_cases hi : i = ⟨t.nextId⟩
      · rw [hi, get?_subClusters_add_next hc.numbered] at hs
        cases hs
      · rw [get?_subClusters_add _ hi, Option.map_eq_some_iff] at hs
        obtain ⟨s₀, hs₀, rfl⟩ := hs
        rw [Addition.mount] at hsk ⊢
        split at hsk
        · rename_i hmounts
          rw [if_pos hmounts]
          simp only [Addition.mounts, Bool.and_eq_true, List.contains_iff_mem] at hmounts
          exact hmounts.2
        · -- No old sub-cluster is mounted on a cluster that is not there yet.
          obtain ⟨r, hr, -⟩ := hc.intact.mounted.home hs₀ hsk
          exact absurd (hc.numbered.clusters.below hr) (Int.lt_irrefl _)
    · intro hn
      obtain ⟨i, s, hs, howner, hname, -⟩ := free n hn
      refine ⟨i, _, get?_subClusters_add_old hc.numbered _ hs, ?_⟩
      rw [Addition.mount_of_mounts (by simp [Addition.mounts, howner, hname, hn])]
      exact ⟨rfl, hname⟩

end Tables
end FleetControl.Store
