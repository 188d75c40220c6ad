import FleetControl.Proofs.Consistent

/-!
What the files of the six topics show, said of the tables record by record and not by the order in
which exporters read. Each file is determined by what it shows.
-/

namespace FleetControl

open Store Store.Work Store.Tables Control

namespace Files

variable {κ ρ β : Type} [Ord κ]

/-- A map by name that has what the records of a table have to show, and nothing else. -/
def Shows (table : SortedMap κ ρ) (entry : κ → ρ → String → β → Prop) (m : SortedMap String β) :
    Prop :=
  ∀ n v, m.get? n = some v ↔ ∃ i a, table.get? i = some a ∧ entry i a n v

theorem Shows.unique {table : SortedMap κ ρ} {entry : κ → ρ → String → β → Prop}
    {m m' : SortedMap String β} (h : Shows table entry m) (h' : Shows table entry m') : m = m' :=
  SortedMap.ext fun n => Option.ext fun v => (h n v).trans (h' n v).symm

theorem nodup_of_forall₂ {γ δ : Type} {R : ρ → β → Prop} {f : ρ → γ} {g : β → δ} {l : List ρ}
    {m : List β} (hall : List.Forall₂ R l m)
    (hinj : ∀ {a a' b b'}, R a b → R a' b' → g b = g b' → f a = f a') (hl : (l.map f).Nodup) :
    (m.map g).Nodup := by
  induction hall with
  | nil => exact List.nodup_nil
  | @cons a b l m hab hall ih =>
    rw [List.map_cons, List.nodup_cons] at hl ⊢
    refine ⟨?_, ih hl.2⟩
    intro hmem
    obtain ⟨b', hb', heq⟩ := List.mem_map.1 hmem
    obtain ⟨a', ha', hab'⟩ := exists_left_of_forall₂ hall hb'
    exact hl.1 (hinj hab' hab heq ▸ List.mem_map_of_mem ha')

theorem get?_ofList_of_forall₂ {records : List ρ} {name : ρ → String} {R : ρ → β → Prop}
    {l : List (String × β)} (hnames : (records.map name).Nodup)
    (hfun : ∀ {a v w}, R a v → R a w → v = w)
    (hall : List.Forall₂ (fun a e => e.1 = name a ∧ R a e.2) records l) {n : String} {v : β} :
    (SortedMap.ofList l).get? n = some v ↔ ∃ a ∈ records, name a = n ∧ R a v := by
  have hkeys : (l.map Prod.fst).Nodup :=
    nodup_of_forall₂ hall (fun h h' heq => h.1.symm.trans (heq.trans h'.1)) hnames
  rw [SortedMap.get?_ofList hkeys]
  constructor
  · intro hmem
    obtain ⟨a, ha, hname, hv⟩ := exists_left_of_forall₂ hall hmem
    exact ⟨a, ha, hname.symm, hv⟩
  · rintro ⟨a, ha, rfl, hv⟩
    obtain ⟨⟨n, w⟩, hmem, hname, hw⟩ := exists_left_of_forall₂ hall.flip ha
    obtain rfl : n = name a := hname
    rw [hfun hv hw]
    exact hmem

theorem shows_ofList {kind : Kind} {bound : Int} {id : ρ → Id kind}
    {table : SortedMap (Id kind) ρ} {name : ρ → String} {R : Id kind → ρ → β → Prop}
    (hi : Indexed bound id table) (hd : Distinct table name) {admits : ρ → Bool}
    (hadm : ∀ a, admits a = true) (hfun : ∀ {i a v w}, R i a v → R i a w → v = w)
    {l : List (String × β)}
    (hall : List.Forall₂ (fun a e => e.1 = name a ∧ R (id a) a e.2) (select table admits name) l) :
    Shows table (fun i a n v => name a = n ∧ R i a v) (.ofList l) := by
  intro n v
  rw [get?_ofList_of_forall₂ (R := fun a => R (id a) a) (hd.nodup_select admits) hfun hall]
  constructor
  · rintro ⟨a, ha, hname, hv⟩
    exact ⟨id a, a, (hi.mem_select.1 ha).1, hname, hv⟩
  · rintro ⟨i, a, ha, hname, hv⟩
    have hid := hi.own ha
    exact ⟨a, hi.mem_select.2 ⟨by rw [hid, ha], hadm a⟩, hname, by rw [hid]; exact hv⟩

theorem forall₂_entries {records : List ρ} (name : ρ → String) (content : ρ → β) :
    List.Forall₂ (fun a e => e.1 = name a ∧ content a = e.2) records
      (records.map fun a => (name a, content a)) := by
  rw [List.forall₂_map_right_iff, List.forall₂_same]
  exact fun _ _ => ⟨rfl, rfl⟩

/-! What each file shows. -/

structure ShowsPolicies (t : Tables) (f : ClusterTable) : Prop where
  version : f.version = ""
  config : Shows t.clusters (fun _ c n conf => c.name = n ∧ ClusterConf.ofRecord c = conf) f.config

def ListsInstances (t : Tables) (k : ClusterId) (s : SubCluster.Record) (l : List InstanceConf) : Prop :=
  s.clusterId = some k ∧ ∃ pool, t.pools.get? s.poolId = some pool ∧
    pool.instances.mapM (InstanceConf.ofInstance pool) = .ok l

def ShowsMounted (t : Tables) (k : ClusterId) (m : SortedMap String (List InstanceConf)) : Prop :=
  Shows t.subClusters (fun _ s n l => s.name = n ∧ ListsInstances t k s l) m

structure ShowsInstances (t : Tables) (f : InstanceTable) : Prop where
  version : f.version = ""
  config : Shows t.clusters (fun k c n m => c.name = n ∧ ShowsMounted t k m) f.config

structure ShowsRows (bfe : String) (t : Tables) (f : Gslb) : Prop where
  ts : f.ts = ""
  hostname : f.hostname = bfe
  clusters : Shows t.clusters (fun k c n row => c.name = n ∧
    ∃ p m, t.loadMatrices.get? k = some (p, m) ∧ m.row? bfe = some row) f.clusters

def IsNamed (t : Tables) (p : ProductId) (name : String) : Prop :=
  ∃ q, t.products.get? p = some q ∧ q.name = name

theorem IsNamed.unique {t : Tables} {p : ProductId} {n n' : String} (h : IsNamed t p n)
    (h' : IsNamed t p n') : n = n' := by
  obtain ⟨q, hq, rfl⟩ := h
  obtain ⟨q', hq', rfl⟩ := h'
  rw [hq] at hq'
  rw [Option.some.inj hq']

theorem IsNamed.injective {t : Tables} (h : Consistent t) {p p' : ProductId} {n : String}
    (hp : IsNamed t p n) (hp' : IsNamed t p' n) : p = p' := by
  obtain ⟨q, hq, hname⟩ := hp
  obtain ⟨q', hq', hname'⟩ := hp'
  exact h.named.products p p' q q' hq hq' (hname.trans hname'.symm)

theorem isNamed_of_contains {t : Tables} {p : ProductId} (h : t.products.contains p = true) :
    ∃ n, IsNamed t p n := by
  obtain ⟨q, hq⟩ := SortedMap.contains_iff.1 h
  exact ⟨q.name, q, hq, rfl⟩

structure ShowsRoutes (t : Tables) (f : RouteTable) : Prop where
  version : f.version = ""
  basicRule : Shows t.routeRules
    (fun p rules n l => IsNamed t p n ∧ rules.basic.map BasicRoute.ofRule = l) f.basicRule
  productRule : Shows t.routeRules
    (fun p rules n l => IsNamed t p n ∧ rules.advanced.map AdvancedRoute.ofRule = l) f.productRule

def OwnsHost (t : Tables) (product host : String) : Prop :=
  ∃ i d, t.domains.get? i = some d ∧ d.name = host ∧ IsNamed t d.productId product

structure ShowsHosts (defaultProduct : Option String) (t : Tables) (f : HostTable) : Prop where
  version : f.version = ""
  defaultProduct : f.defaultProduct = defaultProduct
  hosts : ∀ n l, f.hosts.get? n = some l ↔
    l ≠ [] ∧ l.Pairwise (· ≤ ·) ∧ l.Nodup ∧ ∀ host, host ∈ l ↔ OwnsHost t n host
  hostTags : f.hostTags = f.hosts.map fun n _ => [n]

def IsDefaultName (t : Tables) (name : String) : Prop :=
  (name = "" ∧ ∀ i c, t.certificates.get? i = some c → c.isDefault = false) ∨
    ∃ i c, t.certificates.get? i = some c ∧ c.isDefault = true ∧ c.name = name ∧
      ∀ j d, t.certificates.get? j = some d → d.isDefault = true → name ≤ d.name

structure ShowsCertificates (t : Tables) (f : ServerCerts) : Prop where
  version : f.version = ""
  defaultName : IsDefaultName t f.config.defaultName
  certConf : Shows t.certificates
    (fun _ c n files => c.name = n ∧ CertFiles.mk c.certFilePath c.keyFilePath none = files)
    f.config.certConf

/-! A file is determined by what it shows. -/

variable {t : Tables}

theorem ListsInstances.unique {k : ClusterId} {s : SubCluster.Record} {l l' : List InstanceConf}
    (h : ListsInstances t k s l) (h' : ListsInstances t k s l') : l = l' := by
  obtain ⟨-, pool, hpool, hl⟩ := h
  obtain ⟨-, pool', hpool', hl'⟩ := h'
  rw [hpool] at hpool'
  cases hpool'
  rw [hl] at hl'
  exact Except.ok.inj hl'

theorem ShowsPolicies.unique {f f' : ClusterTable} (h : ShowsPolicies t f)
    (h' : ShowsPolicies t f') : f = f' := by
  cases f
  cases f'
  obtain rfl : _ = _ := h.version.trans h'.version.symm
  obtain rfl := h.config.unique h'.config
  rfl

theorem ShowsInstances.unique {f f' : InstanceTable} (h : ShowsInstances t f)
    (h' : ShowsInstances t f') : f = f' := by
  cases f
  cases f'
  obtain rfl : _ = _ := h.version.trans h'.version.symm
  obtain rfl := h.config.unique h'.config
  rfl

theorem ShowsRows.unique {bfe : String} {f f' : Gslb} (h : ShowsRows bfe t f)
    (h' : ShowsRows bfe t f') : f = f' := by
  cases f
  cases f'
  obtain rfl : _ = _ := h.ts.trans h'.ts.symm
  obtain rfl : _ = _ := h.hostname.trans h'.hostname.symm
  obtain rfl := h.clusters.unique h'.clusters
  rfl

theorem ShowsRoutes.unique {f f' : RouteTable} (h : ShowsRoutes t f) (h' : ShowsRoutes t f') :
    f = f' := by
  cases f
  cases f'
  obtain rfl : _ = _ := h.version.trans h'.version.symm
  obtain rfl := h.basicRule.unique h'.basicRule
  obtain rfl := h.productRule.unique h'.productRule
  rfl

theorem ShowsHosts.unique {p : Option String} {f f' : HostTable} (h : ShowsHosts p t f)
    (h' : ShowsHosts p t f') : f = f' := by
  have hhosts : f.hosts = f'.hosts :=
    SortedMap.ext fun n => Option.ext fun l => (h.hosts n l).trans (h'.hosts n l).symm
  have htags := h.hostTags
  rw [hhosts, ← h'.hostTags] at htags
  cases f
  cases f'
  obtain rfl : _ = _ := h.version.trans h'.version.symm
  obtain rfl : _ = _ := h.defaultProduct.trans h'.defaultProduct.symm
  obtain rfl : _ = _ := hhosts
  obtain rfl : _ = _ := htags
  rfl

theorem IsDefaultName.unique {n n' : String} (h : IsDefaultName t n) (h' : IsDefaultName t n') :
    n = n' := by
  rcases h with ⟨rfl, hnone⟩ | ⟨i, c, hc, hdefault, rfl, hleast⟩
  · rcases h' with ⟨rfl, -⟩ | ⟨i, c, hc, hdefault, -⟩
    · rfl
    · rw [hnone i c hc] at hdefault
      cases hdefault
  · rcases h' with ⟨-, hnone⟩ | ⟨j, d, hd, hdefault', rfl, hleast'⟩
    · rw [hnone i c hc] at hdefault
      cases hdefault
    · exact String.le_antisymm (hleast j d hd hdefault') (hleast' i c hc hdefault)

theorem ShowsCertificates.unique {f f' : ServerCerts} (h : ShowsCertificates t f)
    (h' : ShowsCertificates t f') : f = f' := by
  obtain ⟨v, d, m⟩ := f
  obtain ⟨v', d', m'⟩ := f'
  obtain rfl : v = v' := h.version.trans h'.version.symm
  obtain rfl : d = d' := h.defaultName.unique h'.defaultName
  obtain rfl : m = m' := h.certConf.unique h'.certConf
  rfl

end Files
end FleetControl
