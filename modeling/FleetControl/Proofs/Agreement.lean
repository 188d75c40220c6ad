import FleetControl.Proofs.Generated

/-!
The load balancers join the files by name: a route leads to a cluster, the cluster to a row of
weights, and a weight to the instances of a sub-cluster. The files generated from one state of the
tables agree on these names. Maps by name lose nothing, because names are distinct where they are
used as keys, and every name that one file uses as a reference is a key of the file it refers to.
-/

namespace FleetControl.Store.Tables

open Control Export Files

variable {t : Tables}

def NamesClusters (t : Tables) (keys : List String) : Prop :=
  ∀ n, n ∈ keys ↔ ∃ k c, t.clusters.get? k = some c ∧ c.name = n

/-- A cluster's row of weights and its lists of instances speak of the same sub-clusters, and the
weights split all traffic among these and the blackhole. -/
structure RowAgrees (row : LoadRow) (lists : SortedMap String (List InstanceConf)) : Prop where
  columns : ∀ s, s ∈ row.keys ∧ s ≠ LoadMatrix.blackhole ↔ s ∈ lists.keys
  nonempty : lists.keys ≠ []
  weights : ∀ w ∈ row.values, 0 ≤ w ∧ w ≤ 100
  total : LoadMatrix.sum row = 100

structure SplitAgrees (t : Tables) (rows : Gslb) (instances : InstanceTable) : Prop where
  clusters : NamesClusters t rows.clusters.keys
  rows : ∀ n row lists, rows.clusters.get? n = some row → instances.config.get? n = some lists →
    RowAgrees row lists

/-- Routes against the clusters they lead to. -/
structure RoutesAgree (routes : RouteTable) (policies : ClusterTable) : Prop where
  products : ∀ n, n ∈ routes.basicRule.keys ↔ n ∈ routes.productRule.keys
  basic : ∀ n l, routes.basicRule.get? n = some l → ∀ r ∈ l,
    r.clusterName = "ADVANCED_MODE" ∨ r.clusterName ∈ policies.config.keys
  advanced : ∀ n l, routes.productRule.get? n = some l → ∀ r ∈ l,
    r.clusterName ∈ policies.config.keys
  closed : ∀ n l, routes.productRule.get? n = some l →
    ∃ r, l.getLast? = some r ∧ Text.trim r.cond.toList = "default_t()".toList

/-! Keys. -/

theorem mem_keys_of_shows {κ ρ β : Type} [Ord κ] {table : SortedMap κ ρ} {name : ρ → String}
    {R : κ → ρ → β → Prop} {m : SortedMap String β}
    (h : Shows table (fun i a n v => name a = n ∧ R i a v) m)
    (htotal : ∀ i a, table.get? i = some a → ∃ v, R i a v) (n : String) :
    n ∈ m.keys ↔ ∃ i a, table.get? i = some a ∧ name a = n := by
  rw [SortedMap.mem_keys]
  constructor
  · rintro ⟨v, hv⟩
    obtain ⟨i, a, ha, hname, -⟩ := (h n v).1 hv
    exact ⟨i, a, ha, hname⟩
  · rintro ⟨i, a, ha, hname⟩
    obtain ⟨v, hv⟩ := htotal i a ha
    exact ⟨v, (h n v).2 ⟨i, a, ha, hname, hv⟩⟩

theorem namesClusters_policies {f : ClusterTable} (h : ShowsPolicies t f) :
    NamesClusters t f.config.keys :=
  mem_keys_of_shows h.config fun _ c _ => ⟨.ofRecord c, rfl⟩

theorem namesClusters_instances (h : Consistent t) {f : InstanceTable}
    (hf : ShowsInstances t f) : NamesClusters t f.config.keys := by
  apply mem_keys_of_shows hf.config
  intro k c hc
  obtain ⟨e, -, -, hshown⟩ := clusterInstances_finds h c
  rw [h.numbered.clusters.own hc] at hshown
  exact ⟨e.2, hshown⟩

theorem namesClusters_rows (h : Consistent t) {bfe : String} (hknown : bfe ∈ t.fleet)
    {f : Gslb} (hf : ShowsRows bfe t f) : NamesClusters t f.clusters.keys := by
  apply mem_keys_of_shows hf.clusters
  intro k c hc
  obtain ⟨m, hm⟩ := (h.intact.balanced k c.productId).2 ⟨c, hc, rfl⟩
  obtain ⟨row, hrow⟩ := SortedMap.contains_iff.1 ((h.headed k c.productId m hm bfe).2 hknown)
  exact ⟨row, c.productId, m, hm, hrow⟩

theorem mem_keys_mounted (h : Consistent t) {k : ClusterId}
    {lists : SortedMap String (List InstanceConf)} (hlists : ShowsMounted t k lists) (n : String) :
    n ∈ lists.keys ↔ n ∈ t.boundNames k := by
  rw [SortedMap.mem_keys, h.numbered.mem_boundNames]
  constructor
  · rintro ⟨l, hl⟩
    obtain ⟨i, s, hs, hname, hk, -⟩ := (hlists n l).1 hl
    exact ⟨i, s, hs, hk, hname⟩
  · rintro ⟨i, s, hs, hk, hname⟩
    obtain ⟨l, hl⟩ := exists_lists h hs hk
    exact ⟨l, (hlists n l).2 ⟨i, s, hs, hname, hl⟩⟩

/-! Rows. -/

theorem rowAgrees_of_fits (h : Consistent t) {k : ClusterId} {c : Cluster.Record}
    (hc : t.clusters.get? k = some c) {m : LoadMatrix} (hfits : m.Fits t.fleet (t.boundNames k))
    {bfe : String} {row : LoadRow} (hrow : m.row? bfe = some row)
    {lists : SortedMap String (List InstanceConf)} (hlists : ShowsMounted t k lists) :
    RowAgrees row lists := by
  have hrowFits := hfits.fitting hrow
  constructor
  · intro s
    rw [mem_keys_mounted h hlists, SortedMap.mem_keys]
    constructor
    · rintro ⟨⟨w, hw⟩, hne⟩
      exact (hrowFits.columns hw).resolve_left hne
    · intro hbound
      refine ⟨SortedMap.contains_iff.1 (hrowFits.complete hbound), ?_⟩
      rintro rfl
      exact hfits.unreserved hbound
  · obtain ⟨i, s, hs, hk⟩ := h.intact.mounted.populated hc
    have hbound := h.numbered.mem_boundNames.2 ⟨i, s, hs, hk, rfl⟩
    exact List.ne_nil_of_mem ((mem_keys_mounted h hlists s.name).2 hbound)
  · intro w hw
    obtain ⟨n, hn⟩ := SortedMap.mem_values.1 hw
    exact hrowFits.weights hn
  · exact hrowFits.total

theorem splitAgrees (h : t.Reachable) (hword : t.subClusters.size < 2 ^ 31) {bfe : String}
    (hknown : bfe ∈ t.fleet) {rows : Gslb} (hrows : ShowsRows bfe t rows)
    {instances : InstanceTable} (hinstances : ShowsInstances t instances) :
    SplitAgrees t rows instances := by
  have hc := h.consistent
  refine ⟨namesClusters_rows hc hknown hrows, ?_⟩
  intro n row lists hrow hlists
  obtain ⟨k, c, hget, rfl, p, m, hm, hrow⟩ := (hrows.clusters n row).1 hrow
  obtain ⟨k', c', hget', hname, hlists⟩ := (hinstances.config c.name lists).1 hlists
  -- The two files mean the same cluster by the name.
  obtain rfl := hc.named.clusters k' k c' c hget' hget hname
  exact rowAgrees_of_fits hc hget (h.fits hword hm) hrow hlists

/-! Routes. -/

theorem routesAgree (h : Consistent t) {routes : RouteTable} (hroutes : ShowsRoutes t routes)
    {policies : ClusterTable} (hpolicies : ShowsPolicies t policies) :
    RoutesAgree routes policies := by
  have htarget : ∀ {p n k}, t.IsTarget p n k → n ∈ policies.config.keys := by
    rintro p n k ⟨c, hc, hname, -⟩
    exact (namesClusters_policies hpolicies n).2 ⟨k, c, hc, hname⟩
  constructor
  · intro n
    simp only [SortedMap.mem_keys]
    constructor
    · rintro ⟨l, hl⟩
      obtain ⟨p, rules, hrules, hname, -⟩ := (hroutes.basicRule n l).1 hl
      exact ⟨_, (hroutes.productRule n _).2 ⟨p, rules, hrules, hname, rfl⟩⟩
    · rintro ⟨l, hl⟩
      obtain ⟨p, rules, hrules, hname, -⟩ := (hroutes.productRule n l).1 hl
      exact ⟨_, (hroutes.basicRule n _).2 ⟨p, rules, hrules, hname, rfl⟩⟩
  · intro n l hl r hr
    obtain ⟨p, rules, hrules, -, rfl⟩ := (hroutes.basicRule n l).1 hl
    obtain ⟨rule, hrule, rfl⟩ := List.mem_map.1 hr
    have htargets := h.intact.routed p rules hrules
    rw [BasicRoute.ofRule]
    dsimp only
    split
    · exact Or.inl rfl
    · rename_i hfree
      right
      cases hid : rule.clusterId with
      | none => exact absurd ((htargets.reserved rule hrule).1 hid) hfree
      | some k => exact htarget (htargets.basic rule hrule k hid)
  · intro n l hl r hr
    obtain ⟨p, rules, hrules, -, rfl⟩ := (hroutes.productRule n l).1 hl
    obtain ⟨rule, hrule, rfl⟩ := List.mem_map.1 hr
    have htargets := h.intact.routed p rules hrules
    obtain ⟨k, hk⟩ := Option.ne_none_iff_exists'.1 (htargets.resolved rule hrule)
    exact htarget (htargets.advanced rule hrule k hk)
  · intro n l hl
    obtain ⟨p, rules, hrules, -, rfl⟩ := (hroutes.productRule n l).1 hl
    obtain ⟨rule, hlast, hcatch⟩ := h.closed p rules hrules
    refine ⟨.ofRule rule, ?_, of_decide_eq_true hcatch⟩
    rw [List.getLast?_map, hlast, Option.map_some]

/-- After any events that leave fewer sub-clusters than a 32-bit word counts, the files that the
topics have from then on agree with each other, whatever the default product. -/
theorem run_agreement (events : List Event)
    (hword : (start.run events).subClusters.size < 2 ^ 31) (defaultProduct : Option String) :
    ∃ (policies : ClusterTable) (instances : InstanceTable) (routes : RouteTable),
      Topic.clusterTable.generated defaultProduct (start.run events) = .ok policies ∧
      Topic.instanceTable.generated defaultProduct (start.run events) = .ok instances ∧
      Topic.routeRule.generated defaultProduct (start.run events) = .ok routes ∧
      NamesClusters (start.run events) policies.config.keys ∧
      NamesClusters (start.run events) instances.config.keys ∧
      RoutesAgree routes policies ∧
      ∀ i b, (start.run events).bfeClusters.get? i = some b → ∃ rows : Gslb,
        (Topic.gslb b.name).generated defaultProduct (start.run events) = .ok rows ∧
        SplitAgrees (start.run events) rows instances := by
  have hreach : (start.run events).Reachable := ⟨events, rfl⟩
  have hc := hreach.consistent
  obtain ⟨policies, hpolicies, hshowsPolicies⟩ := clusterTable_shows hc
  obtain ⟨instances, hinstances, hshowsInstances⟩ := instanceTable_shows hc
  obtain ⟨routes, hroutes, hshowsRoutes⟩ := routeTable_shows hc
  refine ⟨policies, instances, routes, congrArg Prod.fst hpolicies, congrArg Prod.fst hinstances,
    congrArg Prod.fst hroutes, namesClusters_policies hshowsPolicies,
    namesClusters_instances hc hshowsInstances,
    routesAgree hc hshowsRoutes hshowsPolicies, ?_⟩
  intro i b hb
  have hknown : b.name ∈ (start.run events).fleet := hc.numbered.mem_fleet.2 ⟨i, b, hb, rfl⟩
  obtain ⟨rows, hrows, hshowsRows⟩ := gslb_shows hc hknown
  exact ⟨rows, congrArg Prod.fst hrows, splitAgrees hreach hword hknown hshowsRows hshowsInstances⟩

/-- A cluster that basic and advanced rules of its product lead to, behind one BFE cluster. -/
def routedFleet : List Event :=
  [.call {} ⟨0⟩ (.createProduct ⟨"shop", "", [], []⟩),
    .call {} ⟨0⟩ (.createPool "shop" ⟨"web", .static,
      [⟨"web-1", "10.0.0.1", 1, .ofList [("Default", 8080)], ∅⟩]⟩),
    .call {} ⟨0⟩ (.createPool "BFE" ⟨"edge", .static, []⟩),
    .call {} ⟨0⟩ (.createSubCluster "shop" ⟨"east", "web", ""⟩),
    .call {} ⟨0⟩ (.createCluster "shop" ⟨"front", "", {}, {}, {}, ["east"], none⟩),
    .call {} ⟨0⟩ (.createBfeCluster ⟨"bfe-a", "BFE.edge", 0⟩),
    .call {} ⟨0⟩ (.createDomain "shop" ⟨"shop.example", false, false⟩),
    .call {} ⟨0⟩ (.replaceRules "shop"
      ⟨[⟨["shop.example"], ["/cart"], "front", none, ""⟩,
          ⟨["shop.example"], [], "ADVANCED_MODE", none, ""⟩],
        [⟨"rest", "default_t()", "front", none, ""⟩]⟩)]

theorem routedFleet_agrees :
    (start.run routedFleet).subClusters.size < 2 ^ 31 ∧
      (start.run routedFleet).bfeClusters.get? ⟨7⟩ = some ⟨⟨7⟩, "bfe-a", ⟨4⟩, 0, true⟩ ∧
      ∃ (policies : ClusterTable) (routes : RouteTable) (instances : InstanceTable) (rows : Gslb),
        Topic.clusterTable.generated none (start.run routedFleet) = .ok policies ∧
        Topic.routeRule.generated none (start.run routedFleet) = .ok routes ∧
        Topic.instanceTable.generated none (start.run routedFleet) = .ok instances ∧
        (Topic.gslb "bfe-a").generated none (start.run routedFleet) = .ok rows ∧
        routes.basicRule.get? "shop" = some [⟨["shop.example"], ["/cart"], "front"⟩,
          ⟨["shop.example"], [], "ADVANCED_MODE"⟩] ∧
        routes.productRule.get? "shop" = some [⟨"default_t()", "front"⟩] ∧
        RoutesAgree routes policies ∧ SplitAgrees (start.run routedFleet) rows instances := by
  have hword : (start.run routedFleet).subClusters.size < 2 ^ 31 := by decide +kernel
  have hbfe : (start.run routedFleet).bfeClusters.get? ⟨7⟩ =
      some ⟨⟨7⟩, "bfe-a", ⟨4⟩, 0, true⟩ := by decide +kernel
  obtain ⟨policies, instances, routes, hpolicies, hinstances, hroutes, -, -, hagree, hsplits⟩ :=
    run_agreement routedFleet hword none
  obtain ⟨rows, hrows, hsplit⟩ := hsplits _ _ hbfe
  have hc : (start.run routedFleet).Consistent := Reachable.consistent ⟨routedFleet, rfl⟩
  have hpresent : Topic.routeRule.missing? none (start.run routedFleet) = none := rfl
  obtain ⟨shown, hshown, hshows⟩ := Topic.generated_shows hc hpresent
  obtain rfl : shown = routes := Except.ok.inj (hshown.symm.trans hroutes)
  have hrules : (start.run routedFleet).routeRules.get? ⟨2⟩ = some
      ⟨[⟨["shop.example"], ["/cart"], "front", some ⟨6⟩, ""⟩,
          ⟨["shop.example"], [], "ADVANCED_MODE", none, ""⟩],
        [⟨"rest", "default_t()", "front", some ⟨6⟩, ""⟩]⟩ := by decide +kernel
  have hproduct : (start.run routedFleet).products.get? ⟨2⟩ =
      some ⟨⟨2⟩, "shop", "", [], []⟩ := by decide +kernel
  have hnamed : IsNamed (start.run routedFleet) ⟨2⟩ "shop" := ⟨_, hproduct, rfl⟩
  have hbasic := (hshows.basicRule "shop" _).2 ⟨_, _, hrules, hnamed, rfl⟩
  have hadvanced := (hshows.productRule "shop" _).2 ⟨_, _, hrules, hnamed, rfl⟩
  exact ⟨hword, hbfe, policies, shown, instances, rows, hpolicies, hroutes, hinstances, hrows,
    hbasic, hadvanced, hagree, hsplit⟩

end FleetControl.Store.Tables
