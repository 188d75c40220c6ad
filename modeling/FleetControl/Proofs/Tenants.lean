import FleetControl.Proofs.References

/-!
Products as tenants. What a product has is a part of the tables of its own, and a call that names a
product leaves the parts of all others as they were, whatever it is asked for. The calls that work on
lists of sub-clusters keep to this because what is mounted on a cluster is of the cluster's product.
-/

namespace FleetControl

def Call.product? : Call → Option String
  | updateProduct name _ | deleteProduct name | fetchProduct name | createPool name _
  | updatePoolInstances name .. | deletePool name _ | poolDeletable name _ | fetchPool name _
  | fetchPools name | createSubCluster name _ | updateSubCluster name .. | deleteSubCluster name _
  | fetchSubCluster name _ | fetchSubClusters name | createCluster name _ | updateCluster name ..
  | rebindSubClusters name .. | deleteCluster name _ | fetchCluster name _ | fetchClusters name
  | createDomain name _ | deleteDomain name _ | fetchDomains name | replaceRules name _
  | fetchRules name | clusterReferenced name _ => some name
  | _ => none

/-- The calls about single products and what they have. One of them looks at the rules of all
products, and so is about none. -/
def Call.concernsTenants : Call → Bool
  | domainReferenced _ => true
  | c => c.product?.isSome

namespace Store

def share {κ α : Type} [Ord κ] (table : SortedMap κ α) (owner : α → ProductId) (p : ProductId) :
    SortedMap κ α := table.filter fun _ a => decide (owner a = p)

section

variable {κ α : Type} [Ord κ] [Std.TransOrd κ] [Std.LawfulEqOrd κ] [DecidableEq κ]
  {table : SortedMap κ α} {owner : α → ProductId} {p : ProductId} {k : κ}

theorem share_insert {a : α} (hnew : owner a ≠ p)
    (hold : ∀ b, table.get? k = some b → owner b ≠ p) :
    share (table.insert k a) owner p = share table owner p :=
  SortedMap.filter_insert (decide_eq_false hnew) fun b hb => decide_eq_false (hold b hb)

theorem share_erase (hold : ∀ b, table.get? k = some b → owner b ≠ p) :
    share (table.erase k) owner p = share table owner p :=
  SortedMap.filter_erase fun b hb => decide_eq_false (hold b hb)

theorem share_add {a : α} (absent : table.get? k = none) (hnew : owner a ≠ p) :
    share (table.insert k a) owner p = share table owner p := by
  apply share_insert hnew
  intro b hb
  rw [absent] at hb
  cases hb

theorem share_replace {a b : α} (stored : table.get? k = some b) (hnew : owner a ≠ p)
    (hold : owner b ≠ p) : share (table.insert k a) owner p = share table owner p := by
  apply share_insert hnew
  intro b' hb
  rw [stored] at hb
  cases hb
  exact hold

theorem share_remove {b : α} (stored : table.get? k = some b) (hold : owner b ≠ p) :
    share (table.erase k) owner p = share table owner p := by
  apply share_erase
  intro b' hb
  rw [stored] at hb
  cases hb
  exact hold

end

structure Holding where
  product : Option Product
  pools : SortedMap PoolId Pool
  subClusters : SortedMap SubClusterId SubCluster.Record
  clusters : SortedMap ClusterId Cluster.Record
  loadMatrices : SortedMap ClusterId (ProductId × LoadMatrix)
  domains : SortedMap DomainId Domain
  rules : Option RouteRules

structure Commons where
  bfeClusters : SortedMap BfeClusterId BfeCluster
  certificates : SortedMap CertificateId Certificate
  ledger : List ConfigVersion

namespace Tables

def holding (t : Tables) (p : ProductId) : Holding where
  product := t.products.get? p
  pools := share t.pools Pool.productId p
  subClusters := share t.subClusters SubCluster.Record.productId p
  clusters := share t.clusters Cluster.Record.productId p
  loadMatrices := share t.loadMatrices Prod.fst p
  domains := share t.domains Domain.productId p
  rules := t.routeRules.get? p

def commons (t : Tables) : Commons := ⟨t.bfeClusters, t.certificates, t.ledger⟩

def Apart (t : Tables) (c : Call) (p : ProductId) : Prop :=
  ∀ q, t.products.get? p = some q → c.product? ≠ some q.name

variable {t t' : Tables} {ignoreReadiness : Bool} {c : Call} {p : ProductId}

theorem Apart.ne {q : Product} (h : t.Apart c p) (hq : t.products.get? q.id = some q)
    (hc : c.product? = some q.name) : q.id ≠ p := by
  rintro rfl
  exact h q hq hc

theorem share_mount (cluster : Option ClusterId) {ids : List SubClusterId}
    (h : ∀ i ∈ ids, ∀ s, t.subClusters.get? i = some s → s.productId ≠ p) :
    share (t.mount cluster ids).subClusters SubCluster.Record.productId p =
      share t.subClusters SubCluster.Record.productId p := by
  unfold mount share
  dsimp only
  apply SortedMap.filter_map_of_same
  intro i s hs
  split
  · have hne := h i ‹_› s hs
    exact Or.inr ⟨decide_eq_false hne, decide_eq_false hne⟩
  · exact Or.inl rfl

theorem owner_of_bindable {q : ProductId} {names : List String} {ids : List SubClusterId}
    (hb : Bindable ignoreReadiness t q names ids) {i : SubClusterId} (hi : i ∈ ids)
    {s : SubCluster.Record} (hs : t.subClusters.get? i = some s) : s.productId = q := by
  obtain ⟨s', hs', howner, -⟩ := hb.free i hi
  rw [hs] at hs'
  cases hs'
  exact howner

theorem Mounted.owner (h : Mounted t) {r : Cluster.Record} (hr : t.clusters.get? r.id = some r)
    {i : SubClusterId} (hi : ∃ s, t.subClusters.get? i = some s ∧ s.clusterId = some r.id)
    {s : SubCluster.Record} (hs : t.subClusters.get? i = some s) : s.productId = r.productId := by
  obtain ⟨s', hs', hk⟩ := hi
  rw [hs] at hs'
  cases hs'
  obtain ⟨r', hr', howner⟩ := h.home hs hk
  rw [hr] at hr'
  cases hr'
  exact howner.symm

theorem Balanced.owner (h : Balanced t) {r : Cluster.Record} (hr : t.clusters.get? r.id = some r)
    {e : ProductId × LoadMatrix} (he : t.loadMatrices.get? r.id = some e) : e.1 = r.productId := by
  obtain ⟨r', hr', howner⟩ := (h r.id e.1).1 ⟨e.2, he⟩
  rw [hr] at hr'
  cases hr'
  exact howner.symm

theorem Balanced.share_insert (h : Balanced t) {r : Cluster.Record}
    (hr : t.clusters.get? r.id = some r) (hne : r.productId ≠ p) (m : LoadMatrix) :
    share (t.loadMatrices.insert r.id (r.productId, m)) Prod.fst p =
      share t.loadMatrices Prod.fst p :=
  Store.share_insert hne fun _ he => h.owner hr he ▸ hne

theorem Balanced.share_erase (h : Balanced t) {r : Cluster.Record}
    (hr : t.clusters.get? r.id = some r) (hne : r.productId ≠ p) :
    share (t.loadMatrices.erase r.id) Prod.fst p = share t.loadMatrices Prod.fst p :=
  Store.share_erase fun _ he => h.owner hr he ▸ hne

theorem Balanced.get?_next (h : Balanced t) (hn : t.Numbered) :
    t.loadMatrices.get? ⟨t.nextId⟩ = none := by
  cases he : t.loadMatrices.get? ⟨t.nextId⟩ with
  | none => rfl
  | some e =>
    obtain ⟨r, hr, -⟩ := (h ⟨t.nextId⟩ e.1).1 ⟨e.2, he⟩
    rw [hn.clusters.get?_next] at hr
    cases hr

theorem commons_effect (he : Effect ignoreReadiness t c t') (hc : c.concernsTenants = true) :
    t'.commons = t.commons := by
  cases he <;> first | rfl | cases hc

theorem holding_effect (hn : t.Numbered) (hi : Intact t) (he : Effect ignoreReadiness t c t')
    (hc : c.concernsTenants = true) (hp : t.Apart c p) : t'.holding p = t.holding p := by
  cases he with
  | idle => rfl
  | productUpdated _ stored =>
    have hne := hp.ne stored rfl
    simp only [holding, SortedMap.get?_insert_ne _ _ hne.symm]
  | productDeleted stored =>
    have hne := hp.ne stored rfl
    simp only [holding, SortedMap.get?_erase, if_neg hne.symm]
  | poolCreated _ stored =>
    have hne := hp.ne stored rfl
    unfold holding
    dsimp only
    rw [share_add hn.pools.get?_next hne]
  | instancesUpdated _ storedProduct _ stored owned =>
    have hne := owned ▸ hp.ne storedProduct rfl
    unfold holding
    dsimp only
    rw [share_replace stored (by exact hne) hne]
  | poolDeleted storedProduct _ stored owned =>
    have hne := owned ▸ hp.ne storedProduct rfl
    unfold holding
    dsimp only
    rw [share_remove stored hne]
  | subClusterCreated _ stored =>
    have hne := hp.ne stored rfl
    unfold holding
    dsimp only
    rw [share_add hn.subClusters.get?_next hne]
  | subClusterUpdated _ storedProduct stored owned =>
    have hne := owned ▸ hp.ne storedProduct rfl
    unfold holding
    dsimp only
    rw [share_replace stored (by exact hne) hne]
  | subClusterDeleted storedProduct stored owned =>
    have hne := owned ▸ hp.ne storedProduct rfl
    unfold holding
    dsimp only
    rw [share_remove stored hne]
  | clusterCreated _ _ _ _ _ stored _ bindable =>
    have hne := hp.ne stored rfl
    have hmounted := share_mount (some ⟨t.nextId⟩) fun i hmem s hs =>
      owner_of_bindable bindable hmem hs ▸ hne
    unfold holding
    dsimp only
    rw [share_add hn.clusters.get?_next hne, hmounted, share_add (hi.balanced.get?_next hn) hne]
  | @clusterUpdated _ r change ms _ _ storedProduct stored owned kept replaced =>
    have hne := owned ▸ hp.ne storedProduct rfl
    have hmatrices : share ms Prod.fst p = share t.loadMatrices Prod.fst p := by
      cases hscheduler : change.scheduler with
      | none => rw [kept hscheduler]
      | some m =>
        rw [(replaced hscheduler).2, ← owned]
        exact hi.balanced.share_insert stored hne m
    unfold holding
    dsimp only
    rw [share_replace stored (by exact hne) hne, hmatrices]
  | @rebound _ r target entry removed added _ _ _ storedProduct stored owned released bindable
      storedMatrix =>
    have hne := owned ▸ hp.ne storedProduct rfl
    have hreleased := share_mount none fun i hmem s hs => by
      obtain ⟨s', hs', hk, -⟩ := released.1 hmem
      rw [hi.mounted.owner stored ⟨s', hs', hk⟩ hs]
      exact hne
    have hadded := share_mount (t := t.mount none removed) (some r.id) fun i hmem s hs => by
      obtain ⟨s₀, hs₀, heq, -⟩ := exists_of_get?_mount hs
      rw [heq, owner_of_bindable bindable hmem hs₀, ← owned]
      exact hne
    unfold holding
    dsimp only
    rw [hadded, hreleased, ← owned, hi.balanced.share_insert stored hne]
  | @clusterDeleted _ r ids storedProduct stored owned _ released =>
    have hne := owned ▸ hp.ne storedProduct rfl
    have hreleased := share_mount none fun i hmem s hs =>
      hi.mounted.owner stored (released.1 hmem) hs ▸ hne
    unfold holding
    dsimp only
    rw [hreleased, hi.balanced.share_erase stored hne, share_remove stored hne]
  | domainCreated _ stored =>
    have hne := hp.ne stored rfl
    unfold holding
    dsimp only
    rw [share_add hn.domains.get?_next hne]
  | domainDeleted storedProduct stored owned =>
    have hne := owned ▸ hp.ne storedProduct rfl
    unfold holding
    dsimp only
    rw [share_remove stored hne]
  | rulesReplaced _ stored =>
    have hne := hp.ne stored rfl
    simp only [holding, SortedMap.get?_insert_ne _ _ hne.symm]
  | _ => cases hc

theorem Reachable.separate (h : t.Reachable) (settings : ControlSettings) (now : Instant)
    (hc : c.concernsTenants = true) :
    (t.after (.call settings now c)).commons = t.commons ∧
      ∀ p, t.Apart c p → (t.after (.call settings now c)).holding p = t.holding p := by
  have he := call_effect h.numbered settings now c
  exact ⟨commons_effect he hc, fun p hp => holding_effect h.numbered h.intact he hc hp⟩

/-- After any events whatever, a call about a tenant touches nothing of the other tenants, and
nothing that belongs to none. -/
theorem run_separate (events : List Event) (settings : ControlSettings) (now : Instant)
    (c : Call) (hc : c.concernsTenants = true) :
    ((start.run events).after (.call settings now c)).commons = (start.run events).commons ∧
      ∀ p, (start.run events).Apart c p →
        ((start.run events).after (.call settings now c)).holding p =
          (start.run events).holding p :=
  Reachable.separate ⟨events, rfl⟩ settings now hc

def twoTenants : List Event :=
  [.call {} ⟨0⟩ (.createProduct ⟨"shop", "", [], []⟩),
    .call {} ⟨0⟩ (.createProduct ⟨"game", "", [], []⟩),
    .call {} ⟨0⟩ (.createPool "BFE" ⟨"edge", .static, []⟩),
    .call {} ⟨0⟩ (.createSubCluster "shop" ⟨"east", "BFE.edge", ""⟩),
    .call {} ⟨0⟩ (.createSubCluster "game" ⟨"east", "BFE.edge", ""⟩),
    .call {} ⟨0⟩ (.createCluster "shop" ⟨"front", "", {}, {}, {}, ["east"], none⟩),
    .call {} ⟨0⟩ (.createCluster "game" ⟨"arena", "", {}, {}, {}, ["east"], none⟩)]

theorem twoTenants_separate :
    let t := start.run twoTenants
    let t' := t.after (.call {} ⟨0⟩ (.deleteCluster "shop" "front"))
    (Call.deleteCluster "shop" "front").concernsTenants = true ∧ t' ≠ t ∧
      t.Apart (.deleteCluster "shop" "front") ⟨3⟩ ∧ t'.holding ⟨3⟩ = t.holding ⟨3⟩ ∧
      (t'.holding ⟨3⟩).subClusters.values = [⟨⟨6⟩, "east", ⟨3⟩, "", ⟨4⟩, some ⟨8⟩⟩] ∧
      t'.commons = t.commons := by
  intro t t'
  have happart : t.Apart (.deleteCluster "shop" "front") ⟨3⟩ := by
    have hgame : t.products.get? ⟨3⟩ = some ⟨⟨3⟩, "game", "", [], []⟩ := by decide +kernel
    intro q hq
    rw [hgame] at hq
    cases hq
    decide
  have hchanged : t'.clusters.get? ⟨7⟩ ≠ t.clusters.get? ⟨7⟩ := by decide +kernel
  obtain ⟨hcommons, hothers⟩ := run_separate twoTenants {} ⟨0⟩ (.deleteCluster "shop" "front") rfl
  exact ⟨rfl, fun h => hchanged (by rw [h]), happart, hothers ⟨3⟩ happart, by decide +kernel,
    hcommons⟩

end Tables
end Store
end FleetControl
