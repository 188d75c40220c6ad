import FleetControl.Proofs.Runs

/-!
The store has no foreign keys: that records refer only to records that are there rests on what the
managers look at before they write. Here the references are written down table by table, and each
kind of reference is carried through the effects of all calls.
-/

namespace FleetControl.Store

def Owned {κ α : Type} [Ord κ] (products : SortedMap ProductId Product) (table : SortedMap κ α)
    (owner : κ → α → ProductId) : Prop :=
  ∀ i a, table.get? i = some a → products.contains (owner i a) = true

namespace Owned

variable {κ α : Type} [Ord κ] {products : SortedMap ProductId Product} {table : SortedMap κ α}
  {owner : κ → α → ProductId}

theorem grow (h : Owned products table owner) (k : ProductId) (p : Product) :
    Owned (products.insert k p) table owner :=
  fun i a hget => SortedMap.contains_insert.2 (Or.inr (h i a hget))

theorem shrink (h : Owned products table owner) {p : ProductId}
    (hnone : ∀ {i a}, table.get? i = some a → owner i a ≠ p) :
    Owned (products.erase p) table owner :=
  fun i a hget => SortedMap.contains_erase.2 ⟨hnone hget, h i a hget⟩

variable [Std.LawfulEqOrd κ] [DecidableEq κ]

theorem erase (h : Owned products table owner) (i : κ) : Owned products (table.erase i) owner := by
  intro j b hget
  exact h j b (SortedMap.get?_erase_eq_some.1 hget).2

theorem insert [Std.TransOrd κ] (h : Owned products table owner) {i : κ} {a : α}
    (howner : products.contains (owner i a) = true) :
    Owned products (table.insert i a) owner := by
  intro j b hget
  rcases SortedMap.get?_insert_eq_some.1 hget with ⟨rfl, rfl⟩ | ⟨-, hget⟩
  · exact howner
  · exact h j b hget

end Owned

namespace Tables

open Control

variable {t t' : Tables} {ignoreReadiness : Bool} {c : Call}

structure Grounded (t : Tables) : Prop where
  pools : Owned t.products t.pools fun _ => Pool.productId
  subClusters : Owned t.products t.subClusters fun _ => SubCluster.Record.productId
  clusters : Owned t.products t.clusters fun _ => Cluster.Record.productId
  domains : Owned t.products t.domains fun _ => Domain.productId
  routeRules : Owned t.products t.routeRules fun product _ => product

theorem contains_of_stored {p : Product} (h : t.products.get? p.id = some p) :
    t.products.contains p.id = true := SortedMap.contains_iff.2 ⟨p, h⟩

theorem owned_mount {products : SortedMap ProductId Product}
    (h : Owned products t.subClusters fun _ => SubCluster.Record.productId)
    (cluster : Option ClusterId) (ids : List SubClusterId) :
    Owned products (t.mount cluster ids).subClusters fun _ => SubCluster.Record.productId :=
  forall_mount (fun _ _ hs => hs) h cluster ids

theorem grounded_start : Grounded start := by
  constructor <;> intro i a h <;> simp [start] at h

theorem Grounded.effect (h : Grounded t) (he : Effect ignoreReadiness t c t') : Grounded t' := by
  cases he with
  | productCreated =>
    exact ⟨h.pools.grow _ _, h.subClusters.grow _ _, h.clusters.grow _ _, h.domains.grow _ _,
      h.routeRules.grow _ _⟩
  | productUpdated =>
    exact ⟨h.pools.grow _ _, h.subClusters.grow _ _, h.clusters.grow _ _, h.domains.grow _ _,
      h.routeRules.grow _ _⟩
  | productDeleted _ _ noClusters noSubClusters noPools noDomains =>
    refine ⟨h.pools.shrink noPools, h.subClusters.shrink noSubClusters,
      h.clusters.shrink noClusters, h.domains.shrink noDomains, ?_⟩
    apply (h.routeRules.erase _).shrink
    intro i rules hget hi
    rw [hi, SortedMap.get?_erase, if_pos rfl] at hget
    cases hget
  | poolCreated _ stored =>
    exact { h with pools := h.pools.insert (contains_of_stored stored) }
  | instancesUpdated _ _ _ stored =>
    have howner := h.pools _ _ stored
    exact { h with pools := h.pools.insert howner }
  | poolDeleted => exact { h with pools := h.pools.erase _ }
  | subClusterCreated _ stored =>
    exact { h with subClusters := h.subClusters.insert (contains_of_stored stored) }
  | subClusterUpdated _ _ stored =>
    have howner := h.subClusters _ _ stored
    exact { h with subClusters := h.subClusters.insert howner }
  | subClusterDeleted => exact { h with subClusters := h.subClusters.erase _ }
  | clusterCreated _ _ _ _ _ stored =>
    exact { h with
      clusters := h.clusters.insert (contains_of_stored stored)
      subClusters := owned_mount h.subClusters _ _ }
  | clusterUpdated _ _ _ stored =>
    have howner := h.clusters _ _ stored
    exact { h with clusters := h.clusters.insert howner }
  | rebound =>
    exact { h with subClusters := owned_mount (owned_mount h.subClusters _ _) _ _ }
  | clusterDeleted =>
    exact { h with
      clusters := h.clusters.erase _
      subClusters := owned_mount h.subClusters _ _ }
  | domainCreated _ stored =>
    exact { h with domains := h.domains.insert (contains_of_stored stored) }
  | domainDeleted => exact { h with domains := h.domains.erase _ }
  | rulesReplaced _ stored =>
    exact { h with routeRules := h.routeRules.insert (contains_of_stored stored) }
  | _ => exact { h with }

/-! Pools and what uses them. -/

def Tagged (t : Tables) : Prop :=
  ∀ i q, t.pools.get? i = some q → (q.isInfrastructure = true ↔ q.productId = Product.builtinId)

def Hosted (t : Tables) : Prop :=
  ∀ i b, t.bfeClusters.get? i = some b →
    ∃ q, t.pools.get? b.poolId = some q ∧ q.isInfrastructure = true

def Served (t : Tables) : Prop :=
  ∀ i s, t.subClusters.get? i = some s → t.IsBindablePool s.productId s.poolId

theorem Tagged.effect (h : Tagged t) (he : Effect ignoreReadiness t c t') : Tagged t' := by
  cases he with
  | @poolCreated p =>
    intro i q hget
    rcases SortedMap.get?_insert_eq_some.1 hget with ⟨-, rfl⟩ | ⟨-, hget⟩
    · by_cases hp : p.id = Product.builtinId <;>
        simp [Pool.isInfrastructure, Pools.tagFor, Product.isBuiltin, hp]
    · exact h i q hget
  | @instancesUpdated p pool _ _ _ _ _ stored =>
    intro i q hget
    rcases SortedMap.get?_insert_eq_some.1 hget with ⟨-, rfl⟩ | ⟨-, hget⟩
    · exact h pool.id pool stored
    · exact h i q hget
  | poolDeleted =>
    intro i q hget
    exact h i q (SortedMap.get?_erase_eq_some.1 hget).2
  | _ => exact h

theorem pool_kept (hn : t.Numbered) (he : Effect ignoreReadiness t c t') {i : PoolId} {q : Pool}
    (hq : t.pools.get? i = some q)
    (hused : (∃ j b, t.bfeClusters.get? j = some b ∧ b.poolId = i) ∨
      ∃ j s, t.subClusters.get? j = some s ∧ s.poolId = i) :
    ∃ q', t'.pools.get? i = some q' ∧ q'.productId = q.productId ∧
      q'.isInfrastructure = q.isInfrastructure := by
  cases he with
  | poolCreated => exact ⟨q, hn.pools.get?_insert_next hq _, rfl, rfl⟩
  | @instancesUpdated p pool _ instances _ _ _ stored =>
    rw [SortedMap.get?_insert]
    split
    · rename_i hi
      rw [hi, stored] at hq
      cases hq
      exact ⟨_, rfl, rfl, rfl⟩
    · exact ⟨q, hq, rfl, rfl⟩
  | poolDeleted _ _ _ _ noBfeClusters noSubClusters =>
    rw [SortedMap.get?_erase]
    split
    · rename_i hi
      rcases hused with ⟨j, b, hb, huse⟩ | ⟨j, s, hs, huse⟩
      · exact absurd (huse.trans hi) (noBfeClusters hb)
      · exact absurd (huse.trans hi) (noSubClusters hs)
    · exact ⟨q, hq, rfl, rfl⟩
  | _ => exact ⟨q, hq, rfl, rfl⟩

theorem Hosted.effect (h : Hosted t) (hn : t.Numbered) (he : Effect ignoreReadiness t c t') :
    Hosted t' := by
  -- A BFE cluster is an old one, or it is new and its pool was looked up.
  have hbfe : ∀ i b, t'.bfeClusters.get? i = some b → t.bfeClusters.get? i = some b ∨
      ∃ q, t'.pools.get? b.poolId = some q ∧ q.isInfrastructure = true := by
    intro i b hget
    cases he with
    | @bfeClusterCreated _ pool _ _ _ stored _ infrastructure =>
      rcases SortedMap.get?_insert_eq_some.1 hget with ⟨-, rfl⟩ | ⟨-, hget⟩
      · exact Or.inr ⟨pool, stored, infrastructure⟩
      · exact Or.inl hget
    | bfeClusterDeleted =>
      exact Or.inl (SortedMap.get?_erase_eq_some.1 hget).2
    | _ => exact Or.inl hget
  intro i b hget
  rcases hbfe i b hget with hold | hnew
  · obtain ⟨q, hq, hinfra⟩ := h i b hold
    obtain ⟨q', hq', -, htag⟩ := pool_kept hn he hq (Or.inl ⟨i, b, hold, rfl⟩)
    exact ⟨q', hq', htag.trans hinfra⟩
  · exact hnew

theorem IsBindablePool.effect (hn : t.Numbered) (he : Effect ignoreReadiness t c t')
    {i : SubClusterId} {s : SubCluster.Record} (hs : t.subClusters.get? i = some s)
    {p : ProductId} (h : t.IsBindablePool p s.poolId) : t'.IsBindablePool p s.poolId := by
  obtain ⟨q, hq, hfit⟩ := h
  obtain ⟨q', hq', howner, htag⟩ := pool_kept hn he hq (Or.inr ⟨i, s, hs, rfl⟩)
  refine ⟨q', hq', ?_⟩
  rw [howner, htag]
  exact hfit

theorem Served.effect (h : Served t) (hn : t.Numbered) (he : Effect ignoreReadiness t c t') :
    Served t' := by
  have hold : ∀ i s, t.subClusters.get? i = some s → t'.IsBindablePool s.productId s.poolId :=
    fun i s hs => IsBindablePool.effect hn he hs (h i s hs)
  cases he with
  | subClusterCreated _ _ _ bindable =>
    intro i s hget
    rcases SortedMap.get?_insert_eq_some.1 hget with ⟨-, rfl⟩ | ⟨-, hget⟩
    · exact bindable
    · exact hold i s hget
  | @subClusterUpdated p s change pool _ _ stored owned moved =>
    intro i s' hget
    rw [SortedMap.get?_insert] at hget
    split at hget
    · cases hget
      cases pool with
      | none => exact hold s.id s stored
      | some q =>
        have hbindable := (moved rfl).2
        rw [← owned] at hbindable
        exact hbindable
    · exact hold i s' hget
  | subClusterDeleted =>
    intro i s hget
    exact hold i s (SortedMap.get?_erase_eq_some.1 hget).2
  | clusterCreated => exact forall_mount (fun _ _ hs => hs) hold _ _
  | @rebound _ _ _ _ removed =>
    have hreleased := forall_mount (fun _ _ hs => hs) hold none removed
    exact forall_mount (fun _ _ hs => hs) hreleased _ _
  | clusterDeleted => exact forall_mount (fun _ _ hs => hs) hold _ _
  | _ => exact hold

/-! Clusters and what points at them. -/

structure Mounted (t : Tables) : Prop where
  home : ∀ {i s k}, t.subClusters.get? i = some s → s.clusterId = some k →
    ∃ r, t.clusters.get? k = some r ∧ r.productId = s.productId
  populated : ∀ {k r}, t.clusters.get? k = some r →
    ∃ i s, t.subClusters.get? i = some s ∧ s.clusterId = some k

def Balanced (t : Tables) : Prop :=
  ∀ k p, (∃ m, t.loadMatrices.get? k = some (p, m)) ↔
    ∃ r, t.clusters.get? k = some r ∧ r.productId = p

theorem Balanced.effect (h : Balanced t) (hn : t.Numbered) (he : Effect ignoreReadiness t c t') :
    Balanced t' := by
  cases he with
  | bfeClusterCreated _ _ _ _ _ extended kept =>
    intro k p
    dsimp only
    cases hr : t.clusters.get? k with
    | none =>
      have hk := h k p
      rw [hr] at hk
      rw [kept hr]
      exact hk
    | some r =>
      rw [extended hr]
      simp
  | bfeClusterDeleted _ shrunk kept =>
    intro k p
    dsimp only
    cases hr : t.clusters.get? k with
    | none =>
      have hk := h k p
      rw [hr] at hk
      rw [kept hr]
      exact hk
    | some r =>
      have hk : ∃ m, t.loadMatrices.get? k = some (r.productId, m) := (h k r.productId).2 ⟨r, hr, rfl⟩
      obtain ⟨m, hm⟩ := hk
      rw [shrunk hr, shrunkMatrix, hn.clusters.own hr, hm, Option.map_some]
      split <;> simp
  | @clusterCreated p =>
    intro k q
    simp only [SortedMap.get?_insert]
    split
    · simp
    · exact h k q
  | @clusterUpdated p r change ms _ _ _ stored owned kept replaced =>
    -- A new matrix goes to the place of the old one.
    have hrow : ∀ k q, (∃ m, ms.get? k = some (q, m)) ↔ ∃ m, t.loadMatrices.get? k = some (q, m) := by
      intro k q
      cases hscheduler : change.scheduler with
      | none => rw [kept hscheduler]
      | some m =>
        rw [(replaced hscheduler).2, SortedMap.get?_insert]
        split
        · rename_i hk
          rw [h k q, hk, stored]
          simp [owned]
        · rfl
    intro k q
    dsimp only
    rw [hrow, h k q, SortedMap.get?_insert]
    split
    · rename_i hk
      rw [hk, stored]
      simp [Cluster.Change.apply]
    · rfl
  | @rebound p r _ _ _ _ _ _ _ _ stored owned =>
    intro k q
    dsimp only
    rw [SortedMap.get?_insert]
    split
    · rename_i hk
      rw [hk, stored]
      simp [owned]
    · exact h k q
  | clusterDeleted =>
    intro k q
    simp only [SortedMap.get?_erase]
    split
    · simp
    · exact h k q
  | _ => exact h

theorem Mounted.create (h : Mounted t) (hn : t.Numbered) (r : Cluster.Record) {p : ProductId}
    (hp : r.productId = p) {names : List String} {ids : List SubClusterId} (hnonempty : names ≠ [])
    (hb : Bindable ignoreReadiness t p names ids) :
    Mounted { t with
      clusters := t.clusters.insert ⟨t.nextId⟩ r
      subClusters := (t.mount (some ⟨t.nextId⟩) ids).subClusters } := by
  constructor
  · intro i s k hget hk
    obtain ⟨s₀, hs, heq, hmounted⟩ := exists_of_get?_mount hget
    rw [hk] at hmounted
    rw [heq]
    split at hmounted
    · rename_i hi
      cases hmounted
      obtain ⟨s', hs', howner, -⟩ := hb.free i hi
      rw [hs] at hs'
      cases hs'
      exact ⟨r, SortedMap.get?_insert_self _ _ _, hp.trans howner.symm⟩
    · obtain ⟨r', hr', howner⟩ := h.home hs hmounted.symm
      exact ⟨r', hn.clusters.get?_insert_next hr' _, howner⟩
  · intro k r' hget
    rw [SortedMap.get?_insert] at hget
    split at hget
    · rename_i hk
      obtain ⟨n, hname⟩ := List.exists_mem_of_ne_nil names hnonempty
      obtain ⟨i, hi, s, hs, -⟩ := hb.named n hname
      exact ⟨i, _, get?_mount_of_mem hs hi, by rw [hk]⟩
    · obtain ⟨i, s, hs, hk⟩ := h.populated hget
      exact ⟨i, s, (get?_mount_of_not_mem (hb.not_mem hs hk)).trans hs, hk⟩

theorem Mounted.rebind (h : Mounted t) (hn : t.Numbered) {r : Cluster.Record}
    (hr : t.clusters.get? r.id = some r) {target : List String} (hnonempty : target ≠ [])
    {removed added : List SubClusterId}
    (hreleased : ∀ {i}, i ∈ removed ↔ ∃ s, t.subClusters.get? i = some s ∧
      s.clusterId = some r.id ∧ s.name ∉ target)
    (hb : Bindable ignoreReadiness t r.productId
      (Clusters.difference target (t.boundNames r.id)) added) :
    Mounted { t with
      subClusters := ((t.mount none removed).mount (some r.id) added).subClusters } := by
  -- What keeps its cluster through both steps.
  have hstays : ∀ {i s k}, t.subClusters.get? i = some s → s.clusterId = some k → i ∉ removed →
      ((t.mount none removed).mount (some r.id) added).subClusters.get? i = some s := by
    intro i s k hs hk hi
    have hadded := hb.not_mem hs hk
    rw [get?_mount_of_not_mem hadded, get?_mount_of_not_mem hi, hs]
  constructor
  · intro i s k hget hk
    obtain ⟨s₁, hs₁, heq₁, hmounted₁⟩ := exists_of_get?_mount hget
    obtain ⟨s₀, hs, heq, hmounted⟩ := exists_of_get?_mount hs₁
    rw [hk] at hmounted₁
    rw [heq₁, heq]
    split at hmounted₁
    · rename_i hi
      cases hmounted₁
      obtain ⟨s', hs', howner, -⟩ := hb.free i hi
      rw [hs] at hs'
      cases hs'
      exact ⟨r, hr, howner.symm⟩
    · rw [← hmounted₁] at hmounted
      split at hmounted
      · cases hmounted
      · obtain ⟨r', hr', howner⟩ := h.home hs hmounted.symm
        exact ⟨r', hr', howner⟩
  · intro k r' hget
    by_cases hk : k = r.id
    -- Any name of the target will do: it stays mounted or is mounted now.
    · obtain ⟨n, hname⟩ := List.exists_mem_of_ne_nil target hnonempty
      by_cases hbound : n ∈ t.boundNames r.id
      · obtain ⟨i, s, hs, hmounted, rfl⟩ := hn.mem_boundNames.1 hbound
        have hi : i ∉ removed := by
          intro hi
          obtain ⟨s', hs', -, hgone⟩ := hreleased.1 hi
          rw [hs] at hs'
          cases hs'
          exact hgone hname
        exact ⟨i, s, hstays hs hmounted hi, by rw [hk, hmounted]⟩
      · obtain ⟨i, hi, s, hs, -⟩ := hb.named n (mem_difference.2 ⟨hname, hbound⟩)
        obtain ⟨s₁, hs₁⟩ : ∃ s₁, (t.mount none removed).subClusters.get? i = some s₁ := by
          rw [get?_mount, hs]
          exact ⟨_, rfl⟩
        exact ⟨i, _, get?_mount_of_mem hs₁ hi, by rw [hk]⟩
    · obtain ⟨i, s, hs, hmounted⟩ := h.populated hget
      have hi : i ∉ removed := by
        intro hi
        obtain ⟨s', hs', hmounted', -⟩ := hreleased.1 hi
        rw [hs] at hs'
        cases hs'
        rw [hmounted] at hmounted'
        exact hk (Option.some.inj hmounted')
      exact ⟨i, s, hstays hs hmounted hi, hmounted⟩

theorem Mounted.delete (h : Mounted t) {r : ClusterId} {ids : List SubClusterId}
    (hreleased : ∀ {i}, i ∈ ids ↔ ∃ s, t.subClusters.get? i = some s ∧ s.clusterId = some r) :
    Mounted { t with
      clusters := t.clusters.erase r
      subClusters := (t.mount none ids).subClusters } := by
  constructor
  · intro i s k hget hk
    obtain ⟨s₀, hs, heq, hmounted⟩ := exists_of_get?_mount hget
    rw [hk] at hmounted
    rw [heq]
    split at hmounted
    · cases hmounted
    · rename_i hi
      have hne : k ≠ r := by
        rintro rfl
        exact hi (hreleased.2 ⟨s₀, hs, hmounted.symm⟩)
      obtain ⟨r', hr', howner⟩ := h.home hs hmounted.symm
      exact ⟨r', by rw [SortedMap.get?_erase, if_neg hne, hr'], howner⟩
  · intro k r' hget
    rw [SortedMap.get?_erase] at hget
    split at hget
    · cases hget
    · rename_i hne
      obtain ⟨i, s, hs, hk⟩ := h.populated hget
      have hi : i ∉ ids := by
        intro hi
        obtain ⟨s', hs', hk'⟩ := hreleased.1 hi
        rw [hs] at hs'
        cases hs'
        rw [hk] at hk'
        exact hne (Option.some.inj hk')
      exact ⟨i, s, (get?_mount_of_not_mem hi).trans hs, hk⟩

theorem mounted_start : Mounted start := by
  constructor <;> intro _ _ <;> simp [start]

theorem Mounted.effect (h : Mounted t) (hn : t.Numbered) (he : Effect ignoreReadiness t c t') :
    Mounted t' := by
  cases he with
  | subClusterCreated =>
    constructor
    · intro i s k hget hk
      rw [SortedMap.get?_insert] at hget
      split at hget
      · cases hget
        cases hk
      · exact h.home hget hk
    · intro k r hr
      obtain ⟨i, s, hs, hk⟩ := h.populated hr
      exact ⟨i, s, hn.subClusters.get?_insert_next hs _, hk⟩
  | @subClusterUpdated p s change pool _ _ stored =>
    constructor
    · intro i s' k hget hk
      rw [SortedMap.get?_insert] at hget
      split at hget
      · cases hget
        obtain ⟨r, hr, howner⟩ := h.home stored hk
        exact ⟨r, hr, howner⟩
      · exact h.home hget hk
    · intro k r hr
      obtain ⟨i, s', hs, hk⟩ := h.populated hr
      by_cases hi : i = s.id
      · rw [hi, stored] at hs
        cases hs
        exact ⟨s.id, _, SortedMap.get?_insert_self _ _ _, hk⟩
      · exact ⟨i, s', by rw [SortedMap.get?_insert_ne _ _ hi, hs], hk⟩
  | @subClusterDeleted p s _ stored _ free =>
    constructor
    · intro i s' k hget hk
      rw [SortedMap.get?_erase] at hget
      split at hget
      · cases hget
      · exact h.home hget hk
    · intro k r hr
      obtain ⟨i, s', hs, hk⟩ := h.populated hr
      have hi : i ≠ s.id := by
        rintro rfl
        rw [stored] at hs
        cases hs
        rw [free] at hk
        cases hk
      exact ⟨i, s', by rw [SortedMap.get?_erase, if_neg hi, hs], hk⟩
  | @clusterCreated p proposal _ _ _ _ _ nonempty _ _ _ bindable =>
    have hcreated := h.create hn ⟨⟨t.nextId⟩, proposal.name, p.id, proposal.description,
      proposal.basic, proposal.stickySessions, proposal.passiveHealthCheck⟩ rfl nonempty bindable
    exact ⟨hcreated.home, hcreated.populated⟩
  | @clusterUpdated p r change _ _ _ _ stored =>
    -- The cluster keeps its place and its product.
    have hkept : ∀ {k r'}, t.clusters.get? k = some r' →
        ∃ r'', (t.clusters.insert r.id (change.apply r)).get? k = some r'' ∧
          r''.productId = r'.productId := by
      intro k r' hr'
      by_cases hk : k = r.id
      · rw [hk, stored] at hr'
        cases hr'
        exact ⟨change.apply r, by rw [hk, SortedMap.get?_insert_self], rfl⟩
      · exact ⟨r', by rw [SortedMap.get?_insert_ne _ _ hk, hr'], rfl⟩
    constructor
    · intro i s k hs hk
      obtain ⟨r', hr', howner⟩ := h.home hs hk
      obtain ⟨r'', hr'', howner'⟩ := hkept hr'
      exact ⟨r'', hr'', howner'.trans howner⟩
    · intro k r' hget
      rw [SortedMap.get?_insert] at hget
      split at hget
      · rename_i hk
        rw [hk]
        exact h.populated stored
      · exact h.populated hget
  | @rebound p r target _ removed added _ nonempty _ _ stored owned released bindable =>
    rw [← owned] at bindable
    have hrebound := h.rebind hn stored nonempty released bindable
    exact ⟨hrebound.home, hrebound.populated⟩
  | clusterDeleted _ _ _ _ released =>
    have hdeleted := h.delete released
    exact ⟨hdeleted.home, hdeleted.populated⟩
  | _ => exact ⟨h.home, h.populated⟩

/-! Route rules. -/

/-- A basic rule has no cluster exactly when its target is reserved, an advanced rule always has
one, and the cluster of a rule is the product's cluster of the name it gives. -/
structure RuleTargets (t : Tables) (p : ProductId) (rules : RouteRules) : Prop where
  reserved : ∀ r ∈ rules.basic, r.clusterId = none ↔ Cluster.isReservedName r.clusterName = true
  basic : ∀ r ∈ rules.basic, ∀ k, r.clusterId = some k → t.IsTarget p r.clusterName k
  resolved : ∀ r ∈ rules.advanced, r.clusterId ≠ none
  advanced : ∀ r ∈ rules.advanced, ∀ k, r.clusterId = some k → t.IsTarget p r.clusterName k

def Routed (t : Tables) : Prop :=
  ∀ p rules, t.routeRules.get? p = some rules → RuleTargets t p rules

theorem RuleTargets.imp {p : ProductId} {rules : RouteRules} (h : RuleTargets t p rules)
    (hkept : ∀ {n k}, rules.referencesCluster k = true → t.IsTarget p n k → t'.IsTarget p n k) :
    RuleTargets t' p rules where
  reserved := h.reserved
  resolved := h.resolved
  basic r hr k hk := by
    apply hkept _ (h.basic r hr k hk)
    simp only [RouteRules.referencesCluster, Bool.or_eq_true, List.any_eq_true, decide_eq_true_eq]
    exact Or.inl ⟨r, hr, hk⟩
  advanced r hr k hk := by
    apply hkept _ (h.advanced r hr k hk)
    simp only [RouteRules.referencesCluster, Bool.or_eq_true, List.any_eq_true, decide_eq_true_eq]
    exact Or.inr ⟨r, hr, hk⟩

theorem ruleTargets_of_resolved {p : ProductId} {rules stored : RouteRules}
    (hbasic : List.Forall₂ (ResolvedBasic t p) rules.basic stored.basic)
    (hadvanced : List.Forall₂ (ResolvedAdvanced t p) rules.advanced stored.advanced) :
    RuleTargets t p stored := by
  have hb : ∀ r ∈ stored.basic,
      (Cluster.isReservedName r.clusterName = true → r.clusterId = none) ∧
      (Cluster.isReservedName r.clusterName = false →
        ∃ k, r.clusterId = some k ∧ t.IsTarget p r.clusterName k) := by
    intro r hr
    obtain ⟨r₀, -, heq, hreserved, hfree⟩ := exists_left_of_forall₂ hbasic hr
    have hname : r.clusterName = r₀.clusterName := by rw [heq]
    rw [hname]
    exact ⟨hreserved, hfree⟩
  have ha : ∀ r ∈ stored.advanced, ∃ k, r.clusterId = some k ∧ t.IsTarget p r.clusterName k := by
    intro r hr
    obtain ⟨r₀, -, heq, htarget⟩ := exists_left_of_forall₂ hadvanced hr
    have hname : r.clusterName = r₀.clusterName := by rw [heq]
    rw [hname]
    exact htarget
  constructor
  · intro r hr
    constructor
    · intro hnone
      cases hname : Cluster.isReservedName r.clusterName with
      | true => rfl
      | false =>
        obtain ⟨k, hk, -⟩ := (hb r hr).2 hname
        rw [hnone] at hk
        cases hk
    · exact (hb r hr).1
  · intro r hr k hk
    cases hname : Cluster.isReservedName r.clusterName with
    | true =>
      rw [(hb r hr).1 hname] at hk
      cases hk
    | false =>
      obtain ⟨k', hk', htarget⟩ := (hb r hr).2 hname
      rw [hk] at hk'
      cases hk'
      exact htarget
  · intro r hr hnone
    obtain ⟨k, hk, -⟩ := ha r hr
    rw [hnone] at hk
    cases hk
  · intro r hr k hk
    obtain ⟨k', hk', htarget⟩ := ha r hr
    rw [hk] at hk'
    cases hk'
    exact htarget

theorem Routed.effect (h : Routed t) (hn : t.Numbered) (he : Effect ignoreReadiness t c t') :
    Routed t' := by
  cases he with
  | productDeleted =>
    intro p rules hget
    rw [SortedMap.get?_erase] at hget
    split at hget
    · cases hget
    · exact (h p rules hget).imp fun _ htarget => htarget
  | clusterCreated =>
    intro p rules hget
    apply (h p rules hget).imp
    rintro n k - ⟨r, hr, hname, howner⟩
    exact ⟨r, hn.clusters.get?_insert_next hr _, hname, howner⟩
  | @clusterUpdated _ r change _ _ _ _ stored =>
    intro p rules hget
    apply (h p rules hget).imp
    rintro n k - ⟨r', hr', hname, howner⟩
    by_cases hk : k = r.id
    · rw [hk, stored] at hr'
      cases hr'
      exact ⟨change.apply r, by rw [hk, SortedMap.get?_insert_self], hname, howner⟩
    · exact ⟨r', by rw [SortedMap.get?_insert_ne _ _ hk, hr'], hname, howner⟩
  | @clusterDeleted p r _ _ stored owned unrouted =>
    intro q rules hget
    apply (h q rules hget).imp
    rintro n k hreferenced ⟨r', hr', hname, howner⟩
    have hne : k ≠ r.id := by
      rintro rfl
      rw [stored] at hr'
      cases hr'
      -- Only the rules of the cluster's own product were looked at, but no others can name it.
      rw [← howner, owned] at hget
      rw [unrouted hget] at hreferenced
      cases hreferenced
    exact ⟨r', by rw [SortedMap.get?_erase, if_neg hne, hr'], hname, howner⟩
  | @rulesReplaced p rules resolved _ _ _ basic advanced =>
    intro q rules' hget
    rw [SortedMap.get?_insert] at hget
    split at hget
    · rename_i hq
      cases hget
      rw [hq]
      exact (ruleTargets_of_resolved basic advanced).imp fun _ htarget => htarget
    · exact (h q rules' hget).imp fun _ htarget => htarget
  | _ => exact fun p rules hget => (h p rules hget).imp fun _ htarget => htarget

/-! All references together. -/

/-- No record refers to anything that is not there. -/
structure Intact (t : Tables) : Prop where
  grounded : Grounded t
  tagged : Tagged t
  hosted : Hosted t
  served : Served t
  mounted : Mounted t
  balanced : Balanced t
  routed : Routed t

theorem intact_start : Intact start where
  grounded := grounded_start
  tagged _ _ h := by simp [start] at h
  hosted _ _ h := by simp [start] at h
  served _ _ h := by simp [start] at h
  mounted := mounted_start
  balanced _ _ := by simp [start]
  routed _ _ h := by simp [start] at h

theorem Intact.effect (h : Intact t) (hn : t.Numbered) (he : Effect ignoreReadiness t c t') :
    Intact t' where
  grounded := h.grounded.effect he
  tagged := h.tagged.effect he
  hosted := h.hosted.effect hn he
  served := h.served.effect hn he
  mounted := h.mounted.effect hn he
  balanced := h.balanced.effect hn he
  routed := h.routed.effect hn he

theorem Reachable.intact (h : t.Reachable) : Intact t :=
  h.invariant intact_start fun hr hi he => hi.effect hr.numbered he

/-- After any events whatever, all references are good. -/
theorem run_intact (events : List Event) : Intact (start.run events) :=
  Reachable.intact ⟨events, rfl⟩

end Tables
end FleetControl.Store
