import FleetControl.Proofs.Contents
import FleetControl.Proofs.Unchanged

/-!
What exporters generate on consistent tables. A topic that has what it needs generates a file that
shows exactly what is stored, and any other topic says what is missing; nothing else can happen.
-/

namespace FleetControl.Export

open Store Store.Work Store.Tables Control Files

variable {t : Tables}

/-! Each exporter generates a file that shows what it should. -/

theorem clusterTable_shows (h : Consistent t) :
    ∃ f, Yields answer t clusterTable.generate f t ∧ ShowsPolicies t f := by
  let clusters := select t.clusters (ClusterFilter.admits {}) (·.name)
  let file : ClusterTable := ⟨"", .ofList (clusters.map fun c => (c.name, .ofRecord c))⟩
  have hconfig : Shows t.clusters (fun _ c n conf => c.name = n ∧ ClusterConf.ofRecord c = conf)
      file.config :=
    shows_ofList h.numbered.clusters h.named.clusters (fun _ => rfl)
      (fun hv hw => hv.symm.trans hw) (forall₂_entries _ _)
  refine ⟨file, ?_, rfl, hconfig⟩
  simp only [clusterTable, yields_bind, yields_ask, yields_pure]
  exact ⟨clusters, t, rfl, rfl, rfl⟩

theorem defaultName_shows (h : Consistent t) :
    IsDefaultName t ((((select t.certificates (CertificateFilter.admits {}) (·.name)).find?
      (·.isDefault)).map (·.name)).getD "") := by
  cases hfind : (select t.certificates (CertificateFilter.admits {}) (·.name)).find?
      (·.isDefault) with
  | none =>
    refine Or.inl ⟨rfl, fun i c hc => ?_⟩
    have hmem : c ∈ select t.certificates (CertificateFilter.admits {}) (·.name) :=
      h.numbered.certificates.mem_select_of_get? hc rfl
    simpa using List.find?_eq_none.1 hfind c hmem
  | some c =>
    obtain ⟨hc, before, later, hlist, hbefore⟩ := List.find?_eq_some_iff_append.1 hfind
    have hmem := List.mem_of_find?_eq_some hfind
    refine Or.inr ⟨c.id, c, (h.numbered.certificates.mem_select.1 hmem).1, hc, rfl, ?_⟩
    intro j d hd hdefault
    have hmem' : d ∈ select t.certificates (CertificateFilter.admits {}) (·.name) :=
      h.numbered.certificates.mem_select_of_get? hd rfl
    have hsorted := Indexed.pairwise_select t.certificates (CertificateFilter.admits {}) (·.name)
    rw [hlist] at hmem' hsorted
    -- Before the first default there is none, and what comes after it has no lesser name.
    rcases List.mem_append.1 hmem' with hd' | hd'
    · have hnot := hbefore d hd'
      rw [hdefault] at hnot
      cases hnot
    · rcases List.mem_cons.1 hd' with rfl | hd'
      · exact String.le_refl _
      · rw [List.map_append, List.map_cons, List.pairwise_append, List.pairwise_cons] at hsorted
        exact hsorted.2.1.1 d.name (List.mem_map_of_mem hd')

theorem serverCerts_shows (h : Consistent t) :
    ∃ f, Yields answer t serverCerts.generate f t ∧ ShowsCertificates t f := by
  let certificates := select t.certificates (CertificateFilter.admits {}) (·.name)
  let file : ServerCerts := ⟨"", ((certificates.find? (·.isDefault)).map (·.name)).getD "",
    .ofList (certificates.map fun c => (c.name, ⟨c.certFilePath, c.keyFilePath, none⟩))⟩
  have hconf : Shows t.certificates
      (fun _ c n files => c.name = n ∧ CertFiles.mk c.certFilePath c.keyFilePath none = files)
      file.config.certConf :=
    shows_ofList h.numbered.certificates h.named.certificates (fun _ => rfl)
      (fun hv hw => hv.symm.trans hw) (forall₂_entries _ _)
  refine ⟨file, ?_, rfl, defaultName_shows h, hconf⟩
  simp only [serverCerts, yields_bind, yields_ask, yields_pure]
  exact ⟨certificates, t, rfl, rfl, rfl⟩

theorem clusterRow_finds (h : Consistent t) {bfe : String} (hknown : bfe ∈ t.fleet) {c : Cluster.Record}
    (hc : t.clusters.get? c.id = some c) :
    ∃ e, Yields answer t (clusterRow bfe c) e t ∧ e.1 = c.name ∧
      ∃ p m, t.loadMatrices.get? c.id = some (p, m) ∧ m.row? bfe = some e.2 := by
  obtain ⟨m, hm⟩ := (h.intact.balanced c.id c.productId).2 ⟨c, hc, rfl⟩
  obtain ⟨row, hrow⟩ := SortedMap.contains_iff.1 ((h.headed c.id c.productId m hm bfe).2 hknown)
  refine ⟨(c.name, row), ?_, rfl, c.productId, m, hm, hrow⟩
  simp only [clusterRow, yields_bind, yields_ask, yields_require, yields_pure]
  refine ⟨some m, t, ?_, row, t, ⟨hrow, rfl⟩, rfl, rfl⟩
  rw [answer, hm]
  rfl

theorem gslb_shows (h : Consistent t) {bfe : String} (hknown : bfe ∈ t.fleet) :
    ∃ f, Yields answer t (gslb bfe).generate f t ∧ ShowsRows bfe t f := by
  have hrows : ∀ c ∈ select t.clusters (ClusterFilter.admits {}) (·.name), ∃ e,
      Yields answer t (clusterRow bfe c) e t ∧ e.1 = c.name ∧
        ∃ p m, t.loadMatrices.get? c.id = some (p, m) ∧ m.row? bfe = some e.2 :=
    fun c hc => clusterRow_finds h hknown (h.numbered.clusters.mem_select.1 hc).1
  obtain ⟨rows, hall⟩ := exists_forall₂ hrows
  have hclusters : Shows t.clusters (fun k c n row => c.name = n ∧
      ∃ p m, t.loadMatrices.get? k = some (p, m) ∧ m.row? bfe = some row) (.ofList rows) := by
    refine shows_ofList h.numbered.clusters h.named.clusters (fun _ => rfl) ?_
      (hall.imp fun _ _ he => he.2)
    rintro k c v w ⟨p, m, hm, hv⟩ ⟨q, m', hm', hw⟩
    rw [hm] at hm'
    cases hm'
    exact Option.some.inj (hv.symm.trans hw)
  refine ⟨⟨.ofList rows, bfe, ""⟩, ?_, rfl, rfl, hclusters⟩
  have hfound : (select t.bfeClusters (BfeClusterFilter.admits { name := some bfe })
      (·.name)).isEmpty = false := by
    obtain ⟨i, b, hb, rfl⟩ := h.numbered.mem_fleet.1 hknown
    have hmem : b ∈ select t.bfeClusters (BfeClusterFilter.admits { name := some b.name })
        (·.name) :=
      h.numbered.bfeClusters.mem_select_of_get? hb (by simp [BfeClusterFilter.admits])
    exact List.isEmpty_eq_false_iff.2 (List.ne_nil_of_mem hmem)
  simp only [gslb, yields_bind, yields_ask, yields_refuseIf, yields_pure]
  exact ⟨_, t, rfl, (), t, ⟨hfound, rfl⟩, _, t, rfl, rows, t,
    yields_forAll (hall.imp fun _ _ he => he.1), rfl, rfl⟩

theorem exists_instances (h : Consistent t) {i : PoolId} {pool : Pool}
    (hpool : t.pools.get? i = some pool) :
    ∃ l, pool.instances.mapM (InstanceConf.ofInstance pool) = .ok l := by
  obtain ⟨l, hl⟩ := exists_forall₂ fun x hx => exists_ofInstance (h.equipped i pool hpool x hx) pool
  exact ⟨l, mapM_of_forall₂ hl⟩

theorem exists_lists (h : Consistent t) {k : ClusterId} {i : SubClusterId} {s : SubCluster.Record}
    (hs : t.subClusters.get? i = some s) (hk : s.clusterId = some k) : ∃ l, ListsInstances t k s l := by
  obtain ⟨pool, hpool, -⟩ := h.intact.served i s hs
  obtain ⟨l, hl⟩ := exists_instances h hpool
  exact ⟨l, hk, pool, hpool, hl⟩

theorem instanceList_finds (h : Consistent t) {k : ClusterId} {r : SubCluster.Record}
    (hk : r.clusterId = some k) {s : SubCluster} (hs : Resolves t r s) :
    ∃ e, instanceList s = .ok e ∧ e.1 = r.name ∧ ListsInstances t k r e.2 := by
  obtain ⟨pool, hpool, rfl⟩ := hs
  obtain ⟨l, hl⟩ := exists_instances h hpool
  refine ⟨(r.name, l), ?_, rfl, hk, pool, hpool, hl⟩
  rw [instanceList, SubCluster.ofRecord]
  dsimp only
  rw [hl]
  rfl

theorem clusterInstances_finds (h : Consistent t) (c : Cluster.Record) :
    ∃ e, Yields answer t (clusterInstances c) e t ∧ e.1 = c.name ∧ ShowsMounted t c.id e.2 := by
  have hstored : ∀ r ∈ t.bound c.id, t.subClusters.get? r.id = some r ∧ r.clusterId = some c.id :=
    fun r hr => h.numbered.mem_bound.1 hr
  have hmembers : ∀ r ∈ t.bound c.id, r ∈ t.subClusters.values :=
    fun _ hr => mem_values_of_mem_select hr
  obtain ⟨subClusters, hsub⟩ := h.supplied.resolve hmembers
  obtain ⟨-, hresolved⟩ := resolveSubClusters_yields h.numbered hsub
  -- The lists go with the resolved sub-clusters, and so with the records.
  obtain ⟨lists, hmap, hall⟩ := exists_forall₂_of_forall₂ hresolved fun r hr s hs =>
    instanceList_finds h (hstored r hr).2 hs
  refine ⟨(c.name, .ofList lists), ?_, rfl, ?_⟩
  · simp only [clusterInstances, boundSubClusters, yields_bind, yields_ask, yields_ofExcept,
      yields_pure]
    exact ⟨_, t, rfl, _, t, hsub, lists, t, ⟨mapM_of_forall₂ hmap, rfl⟩, rfl, rfl⟩
  · have hnames : ((t.bound c.id).map (·.name)).Nodup :=
      nodup_boundNames h.numbered h.named h.intact.mounted c.id
    intro n l
    rw [get?_ofList_of_forall₂ hnames (fun hv hw => hv.unique hw) hall]
    constructor
    · rintro ⟨r, hr, hname, hl⟩
      exact ⟨r.id, r, (hstored r hr).1, hname, hl⟩
    · rintro ⟨i, r, hr, hname, hl⟩
      have hid := h.numbered.subClusters.own hr
      exact ⟨r, h.numbered.mem_bound.2 ⟨by rw [hid, hr], hl.1⟩, hname, hl⟩

theorem instanceTable_shows (h : Consistent t) :
    ∃ f, Yields answer t instanceTable.generate f t ∧ ShowsInstances t f := by
  obtain ⟨config, hall⟩ := exists_forall₂ fun c
    (_ : c ∈ select t.clusters (ClusterFilter.admits {}) (·.name)) => clusterInstances_finds h c
  have hconfig : Shows t.clusters (fun k c n m => c.name = n ∧ ShowsMounted t k m)
      (.ofList config) :=
    shows_ofList (R := fun k _ m => ShowsMounted t k m) h.numbered.clusters h.named.clusters
      (fun _ => rfl) (fun hv hw => hv.unique hw) (hall.imp fun _ _ he => he.2)
  refine ⟨⟨"", .ofList config⟩, ?_, rfl, hconfig⟩
  simp only [instanceTable, yields_bind, yields_ask, yields_pure]
  exact ⟨_, t, rfl, config, t, yields_forAll (hall.imp fun _ _ he => he.1), rfl, rfl⟩

/-! Files by product. -/

theorem productNames_yields (h : Consistent t) :
    Yields answer t productNames (t.products.map fun _ p => p.name) t := by
  have hnames : SortedMap.ofList ((select t.products (ProductFilter.admits {}) (·.name)).map
      fun p => (p.id, p.name)) = t.products.map fun _ p => p.name := by
    have hkeys : (((select t.products (ProductFilter.admits {}) (·.name)).map
        fun p => (p.id, p.name)).map Prod.fst).Nodup := by
      rw [List.map_map]
      exact h.numbered.products.nodup_ids
    refine SortedMap.ext fun i => Option.ext fun n => ?_
    rw [SortedMap.get?_ofList hkeys, SortedMap.get?_map, Option.map_eq_some_iff, List.mem_map]
    constructor
    · rintro ⟨p, hp, heq⟩
      obtain ⟨rfl, rfl⟩ := Prod.mk.inj heq
      exact ⟨p, (h.numbered.products.mem_select.1 hp).1, rfl⟩
    · rintro ⟨p, hp, rfl⟩
      exact ⟨p, h.numbered.products.mem_select_of_get? hp rfl, by rw [h.numbered.products.own hp]⟩
  simp only [productNames, yields_bind, yields_ask, yields_pure]
  exact ⟨_, t, rfl, hnames, rfl⟩

theorem ownerName_eq {p : ProductId} {n : String} (f : Fault) (h : IsNamed t p n) :
    ownerName (t.products.map fun _ p => p.name) f p = .ok n := by
  obtain ⟨q, hq, rfl⟩ := h
  rw [ownerName, SortedMap.get?_map, hq]
  rfl

theorem rulesByName_finds (h : Consistent t) (rules : SortedMap ProductId RouteRules)
    (hrules : ∀ p, rules.get? p = t.routeRules.get? p) :
    ∃ named, rulesByName (t.products.map fun _ p => p.name) rules = .ok named ∧
      List.Forall₂ (fun e n => IsNamed t e.1 n.1 ∧ n.2 = e.2) rules.entries named := by
  have hentry : ∀ e ∈ rules.entries, ∃ n : String × RouteRules,
      (ownerName (t.products.map fun _ p => p.name) (orphanRules e.1) e.1).map
        (fun name => (name, e.2)) = .ok n ∧ IsNamed t e.1 n.1 ∧ n.2 = e.2 := by
    intro e he
    have hget := SortedMap.mem_entries.1 he
    rw [hrules] at hget
    obtain ⟨n, hn⟩ := isNamed_of_contains (h.intact.grounded.routeRules e.1 e.2 hget)
    exact ⟨(n, e.2), by rw [ownerName_eq _ hn]; rfl, hn, rfl⟩
  obtain ⟨named, hall⟩ := exists_forall₂ hentry
  exact ⟨named, mapM_of_forall₂ (hall.imp fun _ _ hn => hn.1), hall.imp fun _ _ hn => hn.2⟩

theorem shows_rules (h : Consistent t) {rules : SortedMap ProductId RouteRules}
    (hrules : ∀ p, rules.get? p = t.routeRules.get? p) {named : List (String × RouteRules)}
    (hall : List.Forall₂ (fun e n => IsNamed t e.1 n.1 ∧ n.2 = e.2) rules.entries named)
    {β : Type} (content : RouteRules → β) :
    Shows t.routeRules (fun p r n v => IsNamed t p n ∧ content r = v)
      (.ofList (named.map fun e => (e.1, content e.2))) := by
  have hkeys : ((named.map fun e => (e.1, content e.2)).map Prod.fst).Nodup := by
    rw [List.map_map]
    refine nodup_of_forall₂ hall ?_ rules.nodup_keys
    rintro e e' ⟨n, r⟩ ⟨n', r'⟩ he he' heq
    obtain rfl : n = n' := heq
    exact he.1.injective h he'.1
  intro n v
  rw [SortedMap.get?_ofList hkeys, List.mem_map]
  constructor
  · rintro ⟨⟨n, r⟩, hmem, heq⟩
    cases heq
    obtain ⟨e, he, hname, rfl⟩ := exists_left_of_forall₂ hall hmem
    exact ⟨e.1, e.2, by rw [← hrules]; exact SortedMap.mem_entries.1 he, hname, rfl⟩
  · rintro ⟨p, r, hr, hname, rfl⟩
    rw [← hrules] at hr
    obtain ⟨⟨n', r'⟩, hmem, hname', heq⟩ :=
      exists_left_of_forall₂ hall.flip (SortedMap.mem_entries.2 hr)
    dsimp only at hname' heq
    obtain rfl := heq
    exact ⟨_, hmem, by rw [hname.unique hname']⟩

theorem routeTable_shows (h : Consistent t) :
    ∃ f, Yields answer t routeTable.generate f t ∧ ShowsRoutes t f := by
  have hrules : ∀ p, (t.routeRules.filter fun id _ => (none : Option ProductId).all (id = ·)).get? p =
      t.routeRules.get? p := by
    intro p
    rw [SortedMap.get?_filter]
    cases t.routeRules.get? p <;> rfl
  obtain ⟨named, hnamed, hall⟩ := rulesByName_finds h _ hrules
  refine ⟨⟨"", .ofList (named.map fun e => (e.1, e.2.basic.map BasicRoute.ofRule)),
    .ofList (named.map fun e => (e.1, e.2.advanced.map AdvancedRoute.ofRule))⟩, ?_, rfl, ?_, ?_⟩
  · simp only [routeTable, yields_bind, yields_ask, yields_ofExcept, yields_pure]
    exact ⟨_, t, productNames_yields h, _, t, rfl, named, t, ⟨hnamed, rfl⟩, rfl, rfl⟩
  · exact shows_rules h hrules hall fun r => r.basic.map BasicRoute.ofRule
  · exact shows_rules h hrules hall fun r => r.advanced.map AdvancedRoute.ofRule

def hostsOf (t : Tables) (domains : List Domain) (product : String) : List String :=
  (domains.filter fun d => (t.products.get? d.productId).any (·.name = product)).map (·.name)

theorem isNamed_iff {p : ProductId} {n : String} :
    (t.products.get? p).any (·.name = n) = true ↔ IsNamed t p n := by
  simp only [Option.any_eq_true, decide_eq_true_eq, IsNamed]

theorem mem_hostsOf {domains : List Domain} {n host : String} :
    host ∈ hostsOf t domains n ↔ ∃ d ∈ domains, IsNamed t d.productId n ∧ d.name = host := by
  simp only [hostsOf, List.mem_map, List.mem_filter, isNamed_iff, and_assoc]

def Gathers (t : Tables) (domains : List Domain) (hosts : SortedMap String (List String)) : Prop :=
  ∀ n l, hosts.get? n = some l ↔ l = hostsOf t domains n ∧ l ≠ []

theorem Gathers.getD {domains : List Domain} {hosts : SortedMap String (List String)}
    (h : Gathers t domains hosts) (n : String) : (hosts.get? n).getD [] = hostsOf t domains n := by
  cases hget : hosts.get? n with
  | some l => exact ((h n l).1 hget).1
  | none =>
    by_contra hne
    have hsome := (h n _).2 ⟨rfl, fun hnil => hne hnil.symm⟩
    rw [hget] at hsome
    cases hsome

theorem Gathers.add {domains : List Domain} {hosts : SortedMap String (List String)}
    (h : Gathers t domains hosts) {d : Domain} {p : String} (hp : IsNamed t d.productId p) :
    Gathers t (domains ++ [d]) (addTo hosts p d.name) := by
  intro n l
  rw [addTo, SortedMap.get?_insert, hostsOf, List.filter_append, List.map_append]
  change _ ↔ l = hostsOf t domains n ++ _ ∧ _
  by_cases hn : n = p
  · subst hn
    have hkept : [d].filter (fun d => (t.products.get? d.productId).any (·.name = n)) = [d] :=
      List.filter_cons_of_pos (isNamed_iff.2 hp)
    rw [if_pos rfl, h.getD, hkept, List.map_singleton, Option.some.injEq]
    constructor
    · rintro rfl
      exact ⟨rfl, List.append_ne_nil_of_right_ne_nil _ (List.cons_ne_nil _ _)⟩
    · exact fun hl => hl.1.symm
  · have hother : [d].filter (fun d => (t.products.get? d.productId).any (·.name = n)) = [] :=
      List.filter_cons_of_neg fun hany => hn ((isNamed_iff.1 hany).unique hp)
    rw [if_neg hn, hother, List.map_nil, List.append_nil]
    exact h n l

theorem hostsByProduct_gathers {domains before : List Domain}
    {hosts : SortedMap String (List String)}
    (howned : ∀ d ∈ domains, t.products.contains d.productId = true)
    (h : Gathers t before hosts) :
    ∃ hosts', domains.foldlM (fun hosts d =>
        (ownerName (t.products.map fun _ p => p.name) (orphanDomain d) d.productId).map fun p =>
          addTo hosts p d.name) hosts = .ok hosts' ∧ Gathers t (before ++ domains) hosts' := by
  induction domains generalizing before hosts with
  | nil => exact ⟨hosts, rfl, by rw [List.append_nil]; exact h⟩
  | cons d domains ih =>
    obtain ⟨p, hp⟩ := isNamed_of_contains (howned d List.mem_cons_self)
    obtain ⟨hosts', hrest, hgathers⟩ :=
      ih (fun d hd => howned d (List.mem_cons_of_mem _ hd)) (h.add hp)
    refine ⟨hosts', ?_, by rw [← List.append_cons] at hgathers; exact hgathers⟩
    rw [List.foldlM_cons, ownerName_eq _ hp]
    exact hrest

theorem eq_of_sorted {l l' : List String} (hl : l.Pairwise (· ≤ ·)) (hl' : l'.Pairwise (· ≤ ·))
    (hn : l.Nodup) (hn' : l'.Nodup) (h : ∀ x, x ∈ l ↔ x ∈ l') : l = l' :=
  ((List.perm_ext_iff_of_nodup hn hn').2 h).eq_of_pairwise
    (fun _ _ _ _ => String.le_antisymm) hl hl'

def tenants (t : Tables) : List String := t.products.values.map (·.name)

theorem values_names (t : Tables) : (t.products.map fun _ p => p.name).values = tenants t := by
  rw [tenants, SortedMap.values, SortedMap.values, SortedMap.map, List.map_map, List.map_map]
  rfl

theorem hostsOf_lists (h : Consistent t) (n : String) :
    let l := hostsOf t (select t.domains (DomainFilter.admits {}) (·.name)) n
    l.Pairwise (· ≤ ·) ∧ l.Nodup ∧ ∀ host, host ∈ l ↔ OwnsHost t n host := by
  intro l
  have hsub : List.Sublist l ((select t.domains (DomainFilter.admits {}) (·.name)).map (·.name)) :=
    List.filter_sublist.map _
  refine ⟨(Indexed.pairwise_select _ _ _).sublist hsub, (h.exclusive.distinct.nodup_select _).sublist hsub,
    fun host => ?_⟩
  rw [mem_hostsOf]
  constructor
  · rintro ⟨d, hd, howner, hname⟩
    exact ⟨d.id, d, (h.numbered.domains.mem_select.1 hd).1, hname, howner⟩
  · rintro ⟨i, d, hd, hname, howner⟩
    exact ⟨d, h.numbered.domains.mem_select_of_get? hd rfl, howner, hname⟩

theorem hostTable_shows (h : Consistent t) {defaultProduct : Option String}
    (hdefault : defaultProduct.filter (fun p => !(tenants t).contains p) = none) :
    ∃ f, Yields answer t (hostTable defaultProduct).generate f t ∧ ShowsHosts defaultProduct t f := by
  let domains := select t.domains (DomainFilter.admits {}) (·.name)
  have howned : ∀ d ∈ domains, t.products.contains d.productId = true :=
    fun d hd => h.intact.grounded.domains d.id d (h.numbered.domains.mem_select.1 hd).1
  have hempty : Gathers t [] ∅ := by
    intro n l
    simp [hostsOf]
  obtain ⟨hosts, hgather, hgathers⟩ := hostsByProduct_gathers howned hempty
  refine ⟨⟨"", defaultProduct, hosts, hosts.map fun n _ => [n]⟩, ?_, rfl, rfl, ?_, rfl⟩
  · rw [hostTable, yields_bind]
    refine ⟨_, t, productNames_yields h, ?_⟩
    rw [values_names, hdefault]
    simp only [yields_bind, yields_ask, yields_ofExcept, yields_pure]
    exact ⟨_, t, rfl, hosts, t, ⟨hgather, rfl⟩, rfl, rfl⟩
  · intro n l
    obtain ⟨hsorted, hnodup, hmem⟩ := hostsOf_lists h n
    rw [hgathers n l]
    constructor
    · rintro ⟨rfl, hne⟩
      exact ⟨hne, hsorted, hnodup, hmem⟩
    · rintro ⟨hne, hl, hln, hmembers⟩
      exact ⟨eq_of_sorted hl hsorted hln hnodup fun x => (hmembers x).trans (hmem x).symm, hne⟩

theorem hostTable_missing (h : Consistent t) {defaultProduct : Option String} {p : String}
    (hdefault : defaultProduct.filter (fun p => !(tenants t).contains p) = some p) :
    ((hostTable defaultProduct).generate.run answer t).1 = .error (.notExist "Product" p) := by
  have hnames : productNames.run answer t = (.ok (t.products.map fun _ p => p.name), t) :=
    productNames_yields h
  rw [hostTable, bind_eq, run_bind, hnames]
  dsimp only
  rw [values_names, hdefault]
  rfl

theorem gslb_missing (h : Consistent t) {bfe : String} (habsent : bfe ∉ t.fleet) :
    ((gslb bfe).generate.run answer t).1 = .error (.notExist "BfeCluster" bfe) := by
  have hnone : select t.bfeClusters (BfeClusterFilter.admits { name := some bfe }) (·.name) = [] := by
    refine List.eq_nil_iff_forall_not_mem.2 fun b hb => ?_
    obtain ⟨hget, hadm⟩ := h.numbered.bfeClusters.mem_select.1 hb
    have hname : b.name = bfe := by simpa [BfeClusterFilter.admits] using hadm
    exact habsent (h.numbered.mem_fleet.2 ⟨b.id, b, hget, hname⟩)
  rw [gslb, bind_eq, run_bind, ask, Work.run, answer, hnone]
  rfl

namespace Topic

def Shows (defaultProduct : Option String) (t : Tables) : (topic : Topic) → topic.File → Prop
  | routeRule => ShowsRoutes t
  | hostTable => ShowsHosts defaultProduct t
  | clusterTable => ShowsPolicies t
  | instanceTable => ShowsInstances t
  | certificate => ShowsCertificates t
  | gslb bfe => ShowsRows bfe t

/-- The fault for what the topic needs and is not there: the default product, if one is configured,
or the BFE cluster. -/
def missing? (defaultProduct : Option String) (t : Tables) : Topic → Option Fault
  | hostTable => (defaultProduct.filter fun p => !(tenants t).contains p).map (.notExist "Product")
  | gslb bfe => if bfe ∈ t.fleet then none else some (.notExist "BfeCluster" bfe)
  | _ => none

theorem Shows.unique {defaultProduct : Option String} {topic : Topic} {f f' : topic.File}
    (h : topic.Shows defaultProduct t f) (h' : topic.Shows defaultProduct t f') : f = f' := by
  cases topic with
  | routeRule => exact ShowsRoutes.unique h h'
  | hostTable => exact ShowsHosts.unique h h'
  | clusterTable => exact ShowsPolicies.unique h h'
  | instanceTable => exact ShowsInstances.unique h h'
  | certificate => exact ShowsCertificates.unique h h'
  | gslb bfe => exact ShowsRows.unique h h'

theorem generated_of_yields {topic : Topic} {defaultProduct : Option String} {f : topic.File}
    (h : Yields Tables.answer t (topic.exporter defaultProduct).generate f t) :
    topic.generated defaultProduct t = .ok f := congrArg Prod.fst h

/-- A topic that has what it needs generates a file that shows what is stored. -/
theorem generated_shows (h : Consistent t) {topic : Topic} {defaultProduct : Option String}
    (hpresent : topic.missing? defaultProduct t = none) :
    ∃ f, topic.generated defaultProduct t = .ok f ∧ topic.Shows defaultProduct t f := by
  suffices hgenerates : ∃ f, Yields Tables.answer t (topic.exporter defaultProduct).generate f t ∧
      topic.Shows defaultProduct t f by
    obtain ⟨f, hyields, hshows⟩ := hgenerates
    exact ⟨f, generated_of_yields hyields, hshows⟩
  cases topic with
  | routeRule => exact routeTable_shows h
  | hostTable => exact hostTable_shows h (Option.map_eq_none_iff.1 hpresent)
  | clusterTable => exact clusterTable_shows h
  | instanceTable => exact instanceTable_shows h
  | certificate => exact serverCerts_shows h
  | gslb bfe =>
    refine gslb_shows h ?_
    by_contra habsent
    rw [missing?, if_neg habsent] at hpresent
    cases hpresent

theorem generated_missing (h : Consistent t) {topic : Topic} {defaultProduct : Option String}
    {f : Fault} (hmissing : topic.missing? defaultProduct t = some f) :
    topic.generated defaultProduct t = .error f := by
  cases topic with
  | hostTable =>
    obtain ⟨p, hp, rfl⟩ := Option.map_eq_some_iff.1 hmissing
    exact hostTable_missing h hp
  | gslb bfe =>
    rw [missing?] at hmissing
    split at hmissing
    · cases hmissing
    · cases hmissing
      exact gslb_missing h ‹_›
  | _ => cases hmissing

end Topic
end FleetControl.Export
