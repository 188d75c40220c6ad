import FleetControl.Proofs.Generated

/-!
Ids are numbers in the order of creation, and no file shows them. Two states whose records differ by a
renaming of the ids generate the same files: tables are read in the order of ids, but what is read is
sorted by name before it is listed, and kept under names before it is exported.
-/

namespace FleetControl.Store

structure Renaming where
  product : ProductId → ProductId
  pool : PoolId → PoolId
  bfeCluster : BfeClusterId → BfeClusterId
  subCluster : SubClusterId → SubClusterId
  cluster : ClusterId → ClusterId
  domain : DomainId → DomainId
  certificate : CertificateId → CertificateId

namespace Renaming

variable (ρ : Renaming)

/-! A record under its new id, with the new ids of what it refers to. -/

def ofProduct (p : Product) : Product := { p with id := ρ.product p.id }

def ofPool (q : Pool) : Pool := { q with id := ρ.pool q.id, productId := ρ.product q.productId }

def ofBfeCluster (b : BfeCluster) : BfeCluster :=
  { b with id := ρ.bfeCluster b.id, poolId := ρ.pool b.poolId }

def ofSubCluster (s : SubCluster.Record) : SubCluster.Record :=
  { s with
    id := ρ.subCluster s.id
    productId := ρ.product s.productId
    poolId := ρ.pool s.poolId
    clusterId := s.clusterId.map ρ.cluster }

def ofCluster (c : Cluster.Record) : Cluster.Record :=
  { c with id := ρ.cluster c.id, productId := ρ.product c.productId }

def ofMatrix (e : ProductId × LoadMatrix) : ProductId × LoadMatrix := (ρ.product e.1, e.2)

def ofDomain (d : Domain) : Domain :=
  { d with id := ρ.domain d.id, productId := ρ.product d.productId }

def ofRules (rules : RouteRules) : RouteRules where
  basic := rules.basic.map fun r => { r with clusterId := r.clusterId.map ρ.cluster }
  advanced := rules.advanced.map fun r => { r with clusterId := r.clusterId.map ρ.cluster }

def ofCertificate (c : Certificate) : Certificate := { c with id := ρ.certificate c.id }

def ofPairs (pairs : List (Int × Int)) : Renaming :=
  let rename {kind : Kind} (i : Id kind) : Id kind := ⟨(pairs.lookup i.val).getD i.val⟩
  ⟨rename, rename, rename, rename, rename, rename, rename⟩

end Renaming

def Carries {κ α : Type} [Ord κ] (key : κ → κ) (record : α → α) (table table' : SortedMap κ α) :
    Prop :=
  (table.entries.map fun e => (key e.1, record e.2)).Perm table'.entries

instance {κ α : Type} [Ord κ] [DecidableEq κ] [DecidableEq α] (key : κ → κ) (record : α → α)
    (table table' : SortedMap κ α) : Decidable (Carries key record table table') :=
  inferInstanceAs (Decidable (List.Perm _ _))

namespace Carries

variable {κ α : Type} [Ord κ] [Std.LawfulEqOrd κ] [DecidableEq κ] {key : κ → κ} {record : α → α}
  {table table' : SortedMap κ α}

theorem forth (h : Carries key record table table') {i : κ} {a : α} (ha : table.get? i = some a) :
    table'.get? (key i) = some (record a) := by
  have hentry := List.mem_map_of_mem (f := fun e => (key e.1, record e.2))
    (SortedMap.mem_entries.2 ha)
  exact SortedMap.mem_entries.1 (h.subset hentry)

theorem back (h : Carries key record table table') {j : κ} {b : α} (hb : table'.get? j = some b) :
    ∃ i a, table.get? i = some a ∧ key i = j ∧ record a = b := by
  obtain ⟨⟨i, a⟩, ha, heq⟩ := List.mem_map.1 (h.symm.subset (SortedMap.mem_entries.2 hb))
  obtain ⟨hkey, hrecord⟩ := Prod.mk.inj heq
  exact ⟨i, a, SortedMap.mem_entries.1 ha, hkey, hrecord⟩

theorem injective (h : Carries key record table table') {i j : κ} {a b : α}
    (ha : table.get? i = some a) (hb : table.get? j = some b) (hkey : key i = key j) : i = j := by
  have hkeys : (table.keys.map key).Nodup := by
    have hperm := (h.map Prod.fst).nodup_iff.2 table'.nodup_keys
    rw [List.map_map] at hperm
    rw [SortedMap.keys, List.map_map]
    exact hperm
  have hi : i ∈ table.keys := SortedMap.mem_keys.2 ⟨a, ha⟩
  have hj : j ∈ table.keys := SortedMap.mem_keys.2 ⟨b, hb⟩
  exact List.inj_on_of_nodup_map hkeys hi hj hkey

theorem exists_iff (h : Carries key record table table') {P P' : κ → α → Prop}
    (hP : ∀ {i a}, table.get? i = some a → (P i a ↔ P' (key i) (record a))) :
    (∃ i a, table.get? i = some a ∧ P i a) ↔ ∃ j b, table'.get? j = some b ∧ P' j b := by
  constructor
  · rintro ⟨i, a, ha, hp⟩
    exact ⟨key i, record a, h.forth ha, (hP ha).1 hp⟩
  · rintro ⟨j, b, hb, hp⟩
    obtain ⟨i, a, ha, rfl, rfl⟩ := h.back hb
    exact ⟨i, a, ha, (hP ha).2 hp⟩

theorem shows_iff (h : Carries key record table table') {β : Type}
    {entry entry' : κ → α → String → β → Prop} {m : SortedMap String β}
    (hentry : ∀ {i a}, table.get? i = some a →
      ∀ n v, entry i a n v ↔ entry' (key i) (record a) n v) :
    Files.Shows table entry m ↔ Files.Shows table' entry' m := by
  refine forall_congr' fun n => forall_congr' fun v => ?_
  exact iff_congr Iff.rfl (h.exists_iff fun ha => hentry ha n v)

end Carries

/-- The same tables up to the names of ids: counter and ledger may differ. -/
structure Renamed (ρ : Renaming) (t t' : Tables) : Prop where
  products : Carries ρ.product ρ.ofProduct t.products t'.products
  pools : Carries ρ.pool ρ.ofPool t.pools t'.pools
  bfeClusters : Carries ρ.bfeCluster ρ.ofBfeCluster t.bfeClusters t'.bfeClusters
  subClusters : Carries ρ.subCluster ρ.ofSubCluster t.subClusters t'.subClusters
  clusters : Carries ρ.cluster ρ.ofCluster t.clusters t'.clusters
  loadMatrices : Carries ρ.cluster ρ.ofMatrix t.loadMatrices t'.loadMatrices
  domains : Carries ρ.domain ρ.ofDomain t.domains t'.domains
  routeRules : Carries ρ.product ρ.ofRules t.routeRules t'.routeRules
  certificates : Carries ρ.certificate ρ.ofCertificate t.certificates t'.certificates

namespace Renamed

open Tables Files Export

variable {ρ : Renaming} {t t' : Tables}

/-! Whatever the first tables show, the second ones show. -/

theorem showsPolicies (h : Renamed ρ t t') {f : ClusterTable} (hf : ShowsPolicies t f) :
    ShowsPolicies t' f where
  version := hf.version
  config := (h.clusters.shows_iff fun _ _ _ => Iff.rfl).1 hf.config

theorem showsRows (h : Renamed ρ t t') (hc : Consistent t) {bfe : String} {f : Gslb}
    (hf : ShowsRows bfe t f) : ShowsRows bfe t' f where
  ts := hf.ts
  hostname := hf.hostname
  clusters := by
    refine (h.clusters.shows_iff ?_).1 hf.clusters
    intro k c hget n row
    -- The cluster has one matrix, here and there.
    obtain ⟨m, hm⟩ := (hc.intact.balanced k c.productId).2 ⟨c, hget, rfl⟩
    rw [hm, h.loadMatrices.forth hm]
    simp only [Option.some.injEq, Renaming.ofMatrix, Prod.mk.injEq, Renaming.ofCluster]
    simp

theorem lists_iff (h : Renamed ρ t t') (hc : Consistent t) {k : ClusterId} {c : Cluster.Record}
    (hk : t.clusters.get? k = some c) {i : SubClusterId} {s : SubCluster.Record}
    (hs : t.subClusters.get? i = some s) (l : List InstanceConf) :
    ListsInstances t k s l ↔ ListsInstances t' (ρ.cluster k) (ρ.ofSubCluster s) l := by
  have hmounted : s.clusterId = some k ↔ (ρ.ofSubCluster s).clusterId = some (ρ.cluster k) := by
    rw [Renaming.ofSubCluster, Option.map_eq_some_iff]
    constructor
    · exact fun hsk => ⟨k, hsk, rfl⟩
    · rintro ⟨k₀, hsk, hkey⟩
      obtain ⟨r, hr, -⟩ := hc.intact.mounted.home hs hsk
      rw [hsk, h.clusters.injective hr hk hkey]
  obtain ⟨pool, hpool, -⟩ := hc.intact.served i s hs
  have hpool' : t'.pools.get? (ρ.ofSubCluster s).poolId = some (ρ.ofPool pool) :=
    h.pools.forth hpool
  rw [ListsInstances, ListsInstances, hmounted, hpool, hpool']
  refine and_congr_right fun _ => ?_
  simp only [Option.some.injEq, exists_eq_left']
  exact Iff.rfl

theorem showsInstances (h : Renamed ρ t t') (hc : Consistent t) {f : InstanceTable}
    (hf : ShowsInstances t f) : ShowsInstances t' f where
  version := hf.version
  config := by
    refine (h.clusters.shows_iff ?_).1 hf.config
    intro k c hk n m
    refine and_congr_right fun _ => h.subClusters.shows_iff ?_
    intro i s hs n l
    exact and_congr_right fun _ => h.lists_iff hc hk hs l

theorem isNamed_iff (h : Renamed ρ t t') {p : ProductId} (hp : t.products.contains p = true)
    (n : String) : IsNamed t p n ↔ IsNamed t' (ρ.product p) n := by
  obtain ⟨q, hq⟩ := SortedMap.contains_iff.1 hp
  rw [IsNamed, IsNamed, hq, h.products.forth hq]
  simp only [Option.some.injEq, exists_eq_left']
  exact Iff.rfl

theorem showsRoutes (h : Renamed ρ t t') (hc : Consistent t) {f : RouteTable}
    (hf : ShowsRoutes t f) : ShowsRoutes t' f where
  version := hf.version
  basicRule := by
    refine (h.routeRules.shows_iff ?_).1 hf.basicRule
    intro p rules hget n l
    rw [h.isNamed_iff (hc.intact.grounded.routeRules p rules hget), Renaming.ofRules, List.map_map]
    exact Iff.rfl
  productRule := by
    refine (h.routeRules.shows_iff ?_).1 hf.productRule
    intro p rules hget n l
    rw [h.isNamed_iff (hc.intact.grounded.routeRules p rules hget), Renaming.ofRules, List.map_map]
    exact Iff.rfl

theorem showsHosts (h : Renamed ρ t t') (hc : Consistent t) {defaultProduct : Option String}
    {f : HostTable} (hf : ShowsHosts defaultProduct t f) : ShowsHosts defaultProduct t' f where
  version := hf.version
  defaultProduct := hf.defaultProduct
  hosts := by
    have howns : ∀ n host, OwnsHost t n host ↔ OwnsHost t' n host := by
      intro n host
      refine h.domains.exists_iff ?_
      intro i d hd
      refine and_congr_right fun _ => ?_
      exact h.isNamed_iff (hc.intact.grounded.domains i d hd) n
    intro n l
    rw [hf.hosts n l]
    simp only [howns]
  hostTags := hf.hostTags

theorem isDefaultName (h : Renamed ρ t t') {n : String} (hn : IsDefaultName t n) :
    IsDefaultName t' n := by
  rcases hn with ⟨rfl, hnone⟩ | ⟨i, c, hc, hdefault, hname, hleast⟩
  · refine Or.inl ⟨rfl, ?_⟩
    intro j d hd
    obtain ⟨i, c, hc, -, rfl⟩ := h.certificates.back hd
    exact hnone i c hc
  · refine Or.inr ⟨_, _, h.certificates.forth hc, hdefault, hname, ?_⟩
    intro j d hd hdefault'
    obtain ⟨i', c', hc', -, rfl⟩ := h.certificates.back hd
    exact hleast i' c' hc' hdefault'

theorem showsCertificates (h : Renamed ρ t t') {f : ServerCerts} (hf : ShowsCertificates t f) :
    ShowsCertificates t' f where
  version := hf.version
  defaultName := h.isDefaultName hf.defaultName
  certConf := (h.certificates.shows_iff fun _ _ _ => Iff.rfl).1 hf.certConf

theorem shows (h : Renamed ρ t t') (hc : Consistent t) {defaultProduct : Option String}
    {topic : Topic} {f : topic.File} (hf : topic.Shows defaultProduct t f) :
    topic.Shows defaultProduct t' f := by
  cases topic with
  | routeRule => exact h.showsRoutes hc hf
  | hostTable => exact h.showsHosts hc hf
  | clusterTable => exact h.showsPolicies hf
  | instanceTable => exact h.showsInstances hc hf
  | certificate => exact h.showsCertificates hf
  | gslb bfe => exact h.showsRows hc hf

/-! What a topic needs is there or missing in both. -/

theorem mem_tenants_iff (h : Renamed ρ t t') (p : String) : p ∈ tenants t ↔ p ∈ tenants t' := by
  have hnames : ∀ (u : Tables), p ∈ tenants u ↔ ∃ i q, u.products.get? i = some q ∧ q.name = p := by
    intro u
    simp only [tenants, List.mem_map, SortedMap.mem_values]
    constructor
    · rintro ⟨q, ⟨i, hq⟩, hname⟩
      exact ⟨i, q, hq, hname⟩
    · rintro ⟨i, q, hq, hname⟩
      exact ⟨q, ⟨i, hq⟩, hname⟩
  rw [hnames, hnames]
  exact h.products.exists_iff fun _ => Iff.rfl

theorem mem_fleet_iff (h : Renamed ρ t t') (hn : t.Numbered) (hn' : t'.Numbered) (b : String) :
    b ∈ t.fleet ↔ b ∈ t'.fleet := by
  rw [hn.mem_fleet, hn'.mem_fleet]
  exact h.bfeClusters.exists_iff fun _ => Iff.rfl

theorem missing?_eq (h : Renamed ρ t t') (hn : t.Numbered) (hn' : t'.Numbered)
    (defaultProduct : Option String) (topic : Topic) :
    topic.missing? defaultProduct t = topic.missing? defaultProduct t' := by
  cases topic with
  | hostTable =>
    have hcontains : ∀ p, (tenants t).contains p = (tenants t').contains p := by
      intro p
      rw [Bool.eq_iff_iff, List.contains_iff_mem, List.contains_iff_mem, h.mem_tenants_iff]
    simp only [Topic.missing?, hcontains]
  | gslb bfe => simp only [Topic.missing?, h.mem_fleet_iff hn hn']
  | _ => rfl

theorem generated_eq (h : Renamed ρ t t') (hc : Consistent t) (hc' : Consistent t')
    (defaultProduct : Option String) (topic : Topic) :
    topic.generated defaultProduct t = topic.generated defaultProduct t' := by
  have hsame := h.missing?_eq hc.numbered hc'.numbered defaultProduct topic
  cases hmissing : topic.missing? defaultProduct t with
  | some f =>
    rw [Topic.generated_missing hc hmissing, Topic.generated_missing hc' (hsame ▸ hmissing)]
  | none =>
    obtain ⟨f, hf, hshows⟩ := Topic.generated_shows hc hmissing
    obtain ⟨f', hf', hshows'⟩ := Topic.generated_shows hc' (hsame ▸ hmissing)
    rw [hf, hf', (h.shows hc hshows).unique hshows']

end Renamed

namespace Tables

open Export

/-- What is exported from a file that both states have is the same content under the same signature,
in the answer and in the ledger. -/
structure SameExport {α : Type} [Versioned α] [Json.Encode α] (e : Exporter α) (now now' : Instant)
    (t t' : Tables) (p p' : α) : Prop where
  content : ∀ v, Versioned.setVersion v p = Versioned.setVersion v p'
  signature : Export.signature p = Export.signature p'
  rows : ∃ row row',
    ((t.perform (exportFile now e)).2.history e.topic).getLast? = some row ∧
    ((t'.perform (exportFile now' e)).2.history e.topic).getLast? = some row' ∧
    row.signature = Export.signature p ∧ row'.signature = row.signature

theorem sameExport {α : Type} [Versioned α] [Json.Encode α] [LawfulVersioned α] {e : Exporter α}
    (he : e.generate.Only (·.fetches = true)) {t t' : Tables}
    (hsame : (e.generate.run answer t).1 = (e.generate.run answer t').1) {now now' : Instant}
    {p p' : α} (hp : (t.perform (exportFile now e)).1 = .ok p)
    (hp' : (t'.perform (exportFile now' e)).1 = .ok p') : SameExport e now now' t t' p p' := by
  obtain ⟨file, hfile, hstamped, row, hrow, -, hsignature⟩ := exportFile_answers he hp
  obtain ⟨file', hfile', hstamped', row', hrow', -, hsignature'⟩ := exportFile_answers he hp'
  rw [hsame, hfile'] at hfile
  obtain rfl := Except.ok.inj hfile
  have hsignatures : Export.signature p = Export.signature p' := by
    rw [hstamped, hstamped', signature_setVersion, signature_setVersion]
  refine ⟨?_, hsignatures, row, row', hrow, hrow', hsignature, ?_⟩
  · intro v
    rw [hstamped, hstamped', LawfulVersioned.setVersion_setVersion,
      LawfulVersioned.setVersion_setVersion]
  · rw [hsignature', hsignature, hsignatures]

def SameFiles (t t' : Tables) : Prop :=
  ∀ (defaultProduct : Option String) (topic : Topic),
    topic.generated defaultProduct t = topic.generated defaultProduct t' ∧
      ∀ now now' p p',
        (t.perform (exportFile now (topic.exporter defaultProduct))).1 = .ok p →
        (t'.perform (exportFile now' (topic.exporter defaultProduct))).1 = .ok p' →
        SameExport (topic.exporter defaultProduct) now now' t t' p p'

theorem sameFiles_of_renamed {ρ : Renaming} {t t' : Tables} (h : Renamed ρ t t') (hc : Consistent t)
    (hc' : Consistent t') : SameFiles t t' := by
  intro defaultProduct topic
  have hsame := h.generated_eq hc hc' defaultProduct topic
  refine ⟨hsame, ?_⟩
  intro now now' p p' hp hp'
  exact sameExport (topic.exporter_fetches defaultProduct) hsame hp hp'

end Tables
end FleetControl.Store
