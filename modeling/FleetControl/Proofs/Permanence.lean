import FleetControl.Proofs.Identity

/-!
What a record keeps for as long as it is stored. No update writes back another name or owner, a pool's
tag and type and a domain's TLS flags are never written again, and a mounted sub-cluster has to be
released before it can go elsewhere. Rules of a product are written by calls that name the product.
-/

namespace FleetControl.Store

def Retains {κ α γ : Type} [Ord κ] (table table' : SortedMap κ α) (traits : α → γ) : Prop :=
  ∀ i a b, table.get? i = some a → table'.get? i = some b → traits b = traits a

namespace Retains

variable {κ α γ : Type} [Ord κ] {table : SortedMap κ α} {traits : α → γ}

theorem refl (table : SortedMap κ α) (traits : α → γ) : Retains table table traits := by
  intro i a b ha hb
  rw [ha] at hb
  cases hb
  rfl

variable [Std.LawfulEqOrd κ] [DecidableEq κ]

theorem erase (table : SortedMap κ α) (traits : α → γ) (k : κ) :
    Retains table (table.erase k) traits := by
  intro i a b ha hb
  exact refl table traits i a b ha (SortedMap.get?_erase_eq_some.1 hb).2

theorem map {table' : SortedMap κ α} (h : Retains table table' traits) {f : κ → α → α}
    (hf : ∀ i a, traits (f i a) = traits a) : Retains table (table'.map f) traits := by
  intro i a b ha hb
  rw [SortedMap.get?_map, Option.map_eq_some_iff] at hb
  obtain ⟨b₀, hb₀, rfl⟩ := hb
  exact (hf i b₀).trans (h i a b₀ ha hb₀)

variable [Std.TransOrd κ]

theorem insert {k : κ} (hk : table.get? k = none) (a : α) :
    Retains table (table.insert k a) traits := by
  intro i x y hx hy
  have hne : i ≠ k := by
    rintro rfl
    rw [hk] at hx
    cases hx
  rw [SortedMap.get?_insert_ne _ _ hne] at hy
  exact refl table traits i x y hx hy

theorem replace {k : κ} {a a' : α} (ha : table.get? k = some a) (h : traits a' = traits a) :
    Retains table (table.insert k a') traits := by
  intro i x y hx hy
  rw [SortedMap.get?_insert] at hy
  split at hy
  · subst i
    cases hy
    rw [ha] at hx
    cases hx
    exact h
  · exact refl table traits i x y hx hy

end Retains

structure Lasting (t t' : Tables) : Prop where
  products : Retains t.products t'.products fun p => p.name
  pools : Retains t.pools t'.pools fun q => (q.name, q.productId, q.tag, q.poolType)
  bfeClusters : Retains t.bfeClusters t'.bfeClusters fun b => (b.name, b.poolId)
  subClusters : Retains t.subClusters t'.subClusters fun s => (s.name, s.productId)
  clusters : Retains t.clusters t'.clusters fun c => (c.name, c.productId)
  domains : Retains t.domains t'.domains fun d =>
    (d.name, d.productId, d.usingAdvancedRedirect, d.usingAdvancedHsts)
  certificates : Retains t.certificates t'.certificates fun c => c.name

variable {t t' : Tables} {ignoreReadiness : Bool} {c : Call}

theorem Lasting.refl (t : Tables) : Lasting t t := by
  constructor <;> exact Retains.refl _ _

theorem Retains.mount {table : SortedMap SubClusterId SubCluster.Record}
    (h : Retains table t.subClusters fun s => (s.name, s.productId)) (cluster : Option ClusterId)
    (ids : List SubClusterId) :
    Retains table (t.mount cluster ids).subClusters fun s => (s.name, s.productId) := by
  unfold Tables.mount
  apply h.map
  intro i s
  split <;> rfl

theorem Lasting.of_effect (hn : t.Numbered) (he : Effect ignoreReadiness t c t') :
    Lasting t t' := by
  have hsame := Lasting.refl t
  cases he with
  | productCreated => exact { hsame with products := .insert hn.products.get?_next _ }
  | productUpdated _ stored => exact { hsame with products := .replace stored rfl }
  | productDeleted => exact { hsame with products := .erase _ _ _ }
  | poolCreated => exact { hsame with pools := .insert hn.pools.get?_next _ }
  | instancesUpdated _ _ _ stored => exact { hsame with pools := .replace stored rfl }
  | poolDeleted => exact { hsame with pools := .erase _ _ _ }
  | bfeClusterCreated => exact { hsame with bfeClusters := .insert hn.bfeClusters.get?_next _ }
  | bfeClusterDeleted => exact { hsame with bfeClusters := .erase _ _ _ }
  | subClusterCreated => exact { hsame with subClusters := .insert hn.subClusters.get?_next _ }
  | subClusterUpdated _ _ stored => exact { hsame with subClusters := .replace stored rfl }
  | subClusterDeleted => exact { hsame with subClusters := .erase _ _ _ }
  | clusterCreated =>
    exact { hsame with
      clusters := .insert hn.clusters.get?_next _
      subClusters := hsame.subClusters.mount _ _ }
  | clusterUpdated _ _ _ stored => exact { hsame with clusters := .replace stored rfl }
  | rebound => exact { hsame with subClusters := (hsame.subClusters.mount _ _).mount _ _ }
  | clusterDeleted =>
    exact { hsame with
      clusters := .erase _ _ _
      subClusters := hsame.subClusters.mount _ _ }
  | domainCreated => exact { hsame with domains := .insert hn.domains.get?_next _ }
  | domainDeleted => exact { hsame with domains := .erase _ _ _ }
  | certificateCreated _ _ marked =>
    refine { hsame with certificates := ?_ }
    have hadded (c : Certificate) :
        Retains t.certificates (t.certificates.insert ⟨t.nextId⟩ c) fun c => c.name :=
      .insert hn.certificates.get?_next c
    subst marked
    dsimp only
    split
    · exact (hadded _).map fun _ _ => rfl
    · exact hadded _
  | defaultCertificateSet => exact { hsame with certificates := hsame.certificates.map fun _ _ => rfl }
  | certificateDeleted => exact { hsame with certificates := .erase _ _ _ }
  | _ => exact { hsame with }

/-! Along a run. -/

namespace Retains

variable {kind : Kind} {α γ : Type} {table middle last : SortedMap (Id kind) α} {traits : α → γ}

theorem trans (h : Retains table middle traits) (h' : Retains middle last traits)
    (between : ∀ i a b, table.get? i = some a → last.get? i = some b →
      ∃ x, middle.get? i = some x) : Retains table last traits := by
  intro i a b ha hb
  obtain ⟨x, hx⟩ := between i a b ha hb
  exact (h' i x b hx hb).trans (h i a x ha hx)

end Retains

/-- A record that is there at the beginning and at the end of a run was there all the time. -/
theorem Tables.Reachable.stored_between (h : t.Reachable) {seen more : List Event} (k : Kind)
    (hseen : seen <+: more) {n : Int} (hfirst : (t.entity? n k).isSome)
    (hlast : ((t.run more).entity? n k).isSome) : ((t.run seen).entity? n k).isSome := by
  obtain ⟨a, ha⟩ := Option.isSome_iff_exists.1 hfirst
  obtain ⟨b, hb⟩ := Option.isSome_iff_exists.1 hlast
  rw [(h.kept hseen ha hb).2]
  rfl

theorem isSome_entity {kind : Kind} {α : Type} {table : SortedMap (Id kind) α} {i : Id kind}
    (label : α → Entity) : ((table.get? ⟨i.val⟩).map label).isSome ↔ ∃ x, table.get? i = some x := by
  rw [Option.isSome_map, Option.isSome_iff_exists]

theorem Lasting.trans (h : Lasting t t') {more : Tables} (h' : Lasting t' more)
    (between : ∀ n k, (t.entity? n k).isSome → (more.entity? n k).isSome →
      (t'.entity? n k).isSome) : Lasting t more := by
  have back {kind : Kind} {α : Type} {table middle last : SortedMap (Id kind) α}
      (label : α → Entity)
      (hback : ∀ n, ((table.get? ⟨n⟩).map label).isSome → ((last.get? ⟨n⟩).map label).isSome →
        ((middle.get? ⟨n⟩).map label).isSome) :
      ∀ i a b, table.get? i = some a → last.get? i = some b → ∃ x, middle.get? i = some x := by
    intro i a b ha hb
    have hi := hback i.val ((isSome_entity label).2 ⟨a, ha⟩) ((isSome_entity label).2 ⟨b, hb⟩)
    exact (isSome_entity label).1 hi
  constructor
  · exact h.products.trans h'.products (back Product.entity fun n => between n .product)
  · exact h.pools.trans h'.pools (back Pool.entity fun n => between n .pool)
  · exact h.bfeClusters.trans h'.bfeClusters
      (back BfeCluster.entity fun n => between n .bfeCluster)
  · exact h.subClusters.trans h'.subClusters
      (back SubCluster.Record.entity fun n => between n .subCluster)
  · exact h.clusters.trans h'.clusters (back Cluster.Record.entity fun n => between n .cluster)
  · exact h.domains.trans h'.domains (back Domain.entity fun n => between n .domain)
  · exact h.certificates.trans h'.certificates
      (back Certificate.entity fun n => between n .certificate)

theorem Tables.Reachable.lasting_run (h : t.Reachable) (events : List Event) :
    Lasting t (t.run events) := by
  induction events using List.reverseRecOn with
  | nil => exact Lasting.refl t
  | append_singleton events e ih =>
    have hmiddle : (t.run events).Reachable := by
      obtain ⟨past, rfl⟩ := h
      exact ⟨past ++ events, by rw [run_append]⟩
    have hstep : Lasting (t.run events) (t.run (events ++ [e])) := by
      rw [run_append]
      exact hmiddle.numbered.after_of_effect e (Lasting.of_effect hmiddle.numbered)
    exact ih.trans hstep fun n k => h.stored_between k (List.prefix_append events [e])

/-! One call. -/

structure Steadfast (t : Tables) (c : Call) (t' : Tables) : Prop where
  lasting : Lasting t t'
  /-- A mounted sub-cluster keeps its pool, and cannot be on another cluster right afterwards. -/
  mounted : ∀ i s s' k, t.subClusters.get? i = some s → t'.subClusters.get? i = some s' →
    s.clusterId = some k → s'.poolId = s.poolId ∧ (s'.clusterId = none ∨ s'.clusterId = some k)
  /-- Rules change only by a call that names their product. -/
  rules : ∀ product, t'.routeRules.get? product ≠ t.routeRules.get? product →
    ∃ p, t.products.get? product = some p ∧
      ((∃ rules, c = .replaceRules p.name rules) ∨ c = .deleteProduct p.name)

theorem mounted_of_release {ids : List SubClusterId} {i : SubClusterId}
    {s s' : SubCluster.Record} {k : ClusterId} (hs : t.subClusters.get? i = some s)
    (hs' : (t.mount none ids).subClusters.get? i = some s') (hk : s.clusterId = some k) :
    s'.poolId = s.poolId ∧ (s'.clusterId = none ∨ s'.clusterId = some k) := by
  obtain ⟨s₀, hs₀, hkept, hmounted⟩ := Tables.exists_of_get?_mount hs'
  rw [hs] at hs₀
  cases hs₀
  refine ⟨by rw [hkept], ?_⟩
  split at hmounted
  · exact Or.inl hmounted
  · exact Or.inr (hmounted.trans hk)

theorem mounted_of_effect (hn : t.Numbered) (he : Effect ignoreReadiness t c t')
    {i : SubClusterId} {s s' : SubCluster.Record} {k : ClusterId}
    (hs : t.subClusters.get? i = some s) (hs' : t'.subClusters.get? i = some s')
    (hk : s.clusterId = some k) :
    s'.poolId = s.poolId ∧ (s'.clusterId = none ∨ s'.clusterId = some k) := by
  have hsame : t.subClusters.get? i = some s' →
      s'.poolId = s.poolId ∧ (s'.clusterId = none ∨ s'.clusterId = some k) := by
    intro h
    rw [hs] at h
    cases h
    exact ⟨rfl, Or.inr hk⟩
  cases he with
  | subClusterCreated =>
    have hold : i ≠ ⟨t.nextId⟩ := by
      rintro rfl
      exact absurd (hn.subClusters.below hs) (Int.lt_irrefl t.nextId)
    rw [SortedMap.get?_insert_ne _ _ hold] at hs'
    exact hsame hs'
  | @subClusterUpdated _ s₀ _ pool _ _ stored _ moved =>
    rw [SortedMap.get?_insert] at hs'
    split at hs'
    · rename_i hi
      rw [hi, stored] at hs
      cases hs
      cases hs'
      -- Another pool is only given to a sub-cluster that is not mounted.
      cases pool with
      | none => exact ⟨rfl, Or.inr hk⟩
      | some q =>
        have hfree := (moved rfl).1
        rw [hk] at hfree
        cases hfree
    · exact hsame hs'
  | subClusterDeleted => exact hsame (SortedMap.get?_erase_eq_some.1 hs').2
  | clusterCreated _ _ _ _ _ _ _ bindable =>
    rw [Tables.get?_mount_of_not_mem (bindable.not_mem hs hk)] at hs'
    exact hsame hs'
  | rebound _ _ _ _ _ _ bindable =>
    rw [Tables.get?_mount_of_not_mem (bindable.not_mem hs hk)] at hs'
    exact mounted_of_release hs hs' hk
  | clusterDeleted => exact mounted_of_release hs hs' hk
  | _ => exact hsame hs'

theorem rules_of_effect (he : Effect ignoreReadiness t c t') {product : ProductId}
    (h : t'.routeRules.get? product ≠ t.routeRules.get? product) :
    ∃ p, t.products.get? product = some p ∧
      ((∃ rules, c = .replaceRules p.name rules) ∨ c = .deleteProduct p.name) := by
  cases he with
  | @productDeleted p stored =>
    have hproduct : product = p.id := by
      by_contra hne
      exact h (by rw [SortedMap.get?_erase, if_neg hne])
    exact ⟨p, hproduct ▸ stored, Or.inr rfl⟩
  | @rulesReplaced p rules _ _ stored =>
    have hproduct : product = p.id := by
      by_contra hne
      exact h (SortedMap.get?_insert_ne _ _ hne)
    exact ⟨p, hproduct ▸ stored, Or.inl ⟨rules, rfl⟩⟩
  | _ => exact absurd rfl h

theorem Steadfast.of_effect (hn : t.Numbered) (he : Effect ignoreReadiness t c t') :
    Steadfast t c t' where
  lasting := .of_effect hn he
  mounted _ _ _ _ hs hs' hk := mounted_of_effect hn he hs hs' hk
  rules _ h := rules_of_effect he h

/-- Every call leaves what survives it as it was, and so does every export. -/
theorem Tables.run_steadfast (events : List Event) :
    (∀ settings now c, Steadfast (start.run events) c
      ((start.run events).after (.call settings now c))) ∧
    ∀ now p, Steadfast (start.run events) (.exportTopic p.exporter.topic none)
      ((start.run events).after (.publish now p)) := by
  have hn : (start.run events).Numbered := numbered_start.run events
  constructor
  · intro settings now c
    exact .of_effect hn (call_effect hn settings now c)
  · intro now p
    exact .of_effect hn (publish_effect now p _)

end FleetControl.Store
