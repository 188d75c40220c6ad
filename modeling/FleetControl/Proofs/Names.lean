import FleetControl.Proofs.Runs
import FleetControl.Proofs.Validation

/-!
Names. No two products, pools, BFE clusters, clusters or certificates have the same name, and no two
sub-clusters of one product: a new record is compared with the old ones under the name it is stored
with, and names never change afterwards.
-/

namespace FleetControl.Store

def Distinct {κ α γ : Type} [Ord κ] (table : SortedMap κ α) (key : α → γ) : Prop :=
  ∀ i j a b, table.get? i = some a → table.get? j = some b → key a = key b → i = j

namespace Distinct

variable {κ α γ : Type} [Ord κ] [Std.LawfulEqOrd κ] [DecidableEq κ] {table : SortedMap κ α}
  {key : α → γ}

theorem erase (h : Distinct table key) (k : κ) : Distinct (table.erase k) key := by
  intro i j a b ha hb hkey
  exact h i j a b (SortedMap.get?_erase_eq_some.1 ha).2 (SortedMap.get?_erase_eq_some.1 hb).2 hkey

theorem map (h : Distinct table key) {f : κ → α → α} (hf : ∀ i a, key (f i a) = key a) :
    Distinct (table.map f) key := by
  intro i j a b ha hb hkey
  rw [SortedMap.get?_map, Option.map_eq_some_iff] at ha hb
  obtain ⟨a₀, ha₀, rfl⟩ := ha
  obtain ⟨b₀, hb₀, rfl⟩ := hb
  rw [hf, hf] at hkey
  exact h i j a₀ b₀ ha₀ hb₀ hkey

theorem nodup_values (h : Distinct table key) : (table.values.map key).Nodup := by
  rw [SortedMap.values, List.map_map]
  refine (List.Nodup.of_map _ table.nodup_keys).map_on ?_
  rintro ⟨i, a⟩ ha ⟨j, b⟩ hb hkey
  have ha := SortedMap.mem_entries.1 ha
  have hb := SortedMap.mem_entries.1 hb
  obtain rfl := h i j a b ha hb hkey
  rw [ha] at hb
  rw [Option.some.inj hb]

variable [Std.TransOrd κ]

theorem insert (h : Distinct table key) {k : κ} {a : α}
    (hfresh : ∀ {j b}, table.get? j = some b → key b ≠ key a) : Distinct (table.insert k a) key := by
  intro i j x y hx hy hkey
  rw [SortedMap.get?_insert] at hx hy
  split at hx <;> split at hy
  · rename_i hi hj
    rw [hi, hj]
  · cases hx
    exact absurd hkey.symm (hfresh hy)
  · cases hy
    exact absurd hkey (hfresh hx)
  · exact h i j x y hx hy hkey

theorem replace (h : Distinct table key) {k : κ} {a a' : α} (ha : table.get? k = some a)
    (hkey : key a' = key a) : Distinct (table.insert k a') key := by
  have hold : ∀ i x, (table.insert k a').get? i = some x →
      ∃ x₀, table.get? i = some x₀ ∧ key x₀ = key x := by
    intro i x hx
    rw [SortedMap.get?_insert] at hx
    split at hx
    · rename_i hi
      cases hx
      exact ⟨a, by rw [hi, ha], hkey.symm⟩
    · exact ⟨x, hx, rfl⟩
  intro i j x y hx hy hxy
  obtain ⟨x₀, hx₀, hkx⟩ := hold i x hx
  obtain ⟨y₀, hy₀, hky⟩ := hold j y hy
  exact h i j x₀ y₀ hx₀ hy₀ (hkx.trans (hxy.trans hky.symm))

theorem nodup_select {kind : Kind} {table : SortedMap (Id kind) α} {name : α → String}
    (h : Distinct table name) (admits : α → Bool) :
    ((Tables.select table admits name).map name).Nodup := by
  have hread : ((Tables.select table admits name).map name).Perm
      ((table.values.filter admits).map name) := (List.mergeSort_perm _ _).map name
  rw [hread.nodup_iff]
  exact h.nodup_values.sublist (List.filter_sublist.map name)

end Distinct

def subClusterKey (s : SubCluster.Record) : ProductId × String := (s.productId, s.name)

namespace Tables

variable {t t' : Tables} {ignoreReadiness : Bool} {c : Call}

structure Named (t : Tables) : Prop where
  products : Distinct t.products Product.name
  pools : Distinct t.pools Pool.name
  bfeClusters : Distinct t.bfeClusters BfeCluster.name
  subClusters : Distinct t.subClusters subClusterKey
  clusters : Distinct t.clusters Cluster.Record.name
  certificates : Distinct t.certificates Certificate.name

theorem named_start : Named start := by
  refine ⟨?_, ?_, ?_, ?_, ?_, ?_⟩ <;> intro i j a b ha hb hkey
  · simp only [start, SortedMap.get?_insert, SortedMap.get?_empty] at ha hb
    split at ha
    · split at hb
      · rename_i hi hj
        rw [hi, hj]
      · cases hb
    · cases ha
  all_goals simp [start] at ha

theorem Named.mount (h : Named t) (cluster : Option ClusterId) (ids : List SubClusterId) :
    Named (t.mount cluster ids) := by
  have hmounted : Distinct (t.mount cluster ids).subClusters subClusterKey := by
    unfold Tables.mount
    apply h.subClusters.map
    intro i s
    split <;> rfl
  exact { h with subClusters := hmounted }

theorem Named.effect (h : Named t) (he : Effect ignoreReadiness t c t') : Named t' := by
  cases he with
  | productCreated _ fresh => exact { h with products := h.products.insert fresh }
  | productUpdated _ stored => exact { h with products := h.products.replace stored rfl }
  | productDeleted => exact { h with products := h.products.erase _ }
  | poolCreated _ _ _ _ fresh => exact { h with pools := h.pools.insert fresh }
  | instancesUpdated _ _ _ stored => exact { h with pools := h.pools.replace stored rfl }
  | poolDeleted => exact { h with pools := h.pools.erase _ }
  | bfeClusterCreated _ fresh => exact { h with bfeClusters := h.bfeClusters.insert fresh }
  | bfeClusterDeleted => exact { h with bfeClusters := h.bfeClusters.erase _ }
  | subClusterCreated _ _ fresh =>
    refine { h with subClusters := h.subClusters.insert ?_ }
    intro j s hs hkey
    obtain ⟨howner, hname⟩ := Prod.mk.inj hkey
    exact fresh hs howner hname
  | subClusterUpdated _ _ stored =>
    exact { h with subClusters := h.subClusters.replace stored rfl }
  | subClusterDeleted => exact { h with subClusters := h.subClusters.erase _ }
  -- Mounting changes neither names nor owners.
  | clusterCreated _ _ _ _ _ _ fresh =>
    exact { h with
      clusters := h.clusters.insert fresh
      subClusters := (h.mount _ _).subClusters }
  | clusterUpdated _ _ _ stored => exact { h with clusters := h.clusters.replace stored rfl }
  | rebound => exact { h with subClusters := ((h.mount _ _).mount _ _).subClusters }
  | clusterDeleted =>
    exact { h with
      clusters := h.clusters.erase _
      subClusters := (h.mount _ _).subClusters }
  | certificateCreated _ fresh marked =>
    refine { h with certificates := ?_ }
    subst marked
    dsimp only
    split
    · apply Distinct.map
      · exact h.certificates.insert fresh
      · exact fun _ _ => rfl
    · exact h.certificates.insert fresh
  | defaultCertificateSet =>
    refine { h with certificates := ?_ }
    dsimp only
    apply h.certificates.map
    exact fun _ _ => rfl
  | certificateDeleted => exact { h with certificates := h.certificates.erase _ }
  | _ => exact { h with }

theorem Reachable.named (h : t.Reachable) : Named t :=
  h.invariant named_start fun _ hi he => hi.effect he

/-! Reserved names. -/

/-- No sub-cluster is named like the sink of the load matrices. -/
def Unreserved (t : Tables) : Prop :=
  ∀ i s, t.subClusters.get? i = some s → s.name ≠ LoadMatrix.blackhole

theorem unreserved_start : Unreserved start := by
  intro i s hs
  simp [start] at hs

theorem name_ne_blackhole {p : SubCluster.Proposal} (h : p.findings.refusal? = none) :
    p.name ≠ LoadMatrix.blackhole := by
  simp only [Findings.refusal?_eq_none, SubCluster.Proposal.findings, Findings.isClean_append,
    Findings.isClean_ofField] at h
  have hname := h.1.1
  intro hsink
  rw [hsink] at hname
  revert hname
  decide

theorem Unreserved.mount (h : Unreserved t) (cluster : Option ClusterId)
    (ids : List SubClusterId) : Unreserved (t.mount cluster ids) :=
  forall_mount (fun _ _ hs => hs) h cluster ids

theorem Unreserved.effect (h : Unreserved t) (he : Effect ignoreReadiness t c t') :
    Unreserved t' := by
  cases he with
  | subClusterCreated valid =>
    intro i s hs
    rcases SortedMap.get?_insert_eq_some.1 hs with ⟨-, rfl⟩ | ⟨-, hs⟩
    · exact name_ne_blackhole valid
    · exact h i s hs
  | @subClusterUpdated _ s₀ _ _ _ _ stored =>
    intro i s hs
    rcases SortedMap.get?_insert_eq_some.1 hs with ⟨-, rfl⟩ | ⟨-, hs⟩
    · exact h s₀.id s₀ stored
    · exact h i s hs
  | subClusterDeleted => exact fun i s hs => h i s (SortedMap.get?_erase_eq_some.1 hs).2
  | clusterCreated => exact h.mount _ _
  | rebound => exact (h.mount _ _).mount _ _
  | clusterDeleted => exact h.mount _ _
  | _ => exact h

theorem Reachable.unreserved (h : t.Reachable) : Unreserved t :=
  h.invariant unreserved_start fun _ hi he => hi.effect he

end Tables
end FleetControl.Store
