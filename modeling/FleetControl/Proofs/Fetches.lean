import FleetControl.Proofs.ByteOrder
import FleetControl.Proofs.Reads
import FleetControl.Proofs.Requests

/-!
What fetches answer. In any tables a fetch lists the records that its filter selects, all of them and
each once, in the order of their names; and sub-clusters are resolved each to itself with its pool,
unless a pool is missing.
-/

namespace FleetControl

open Store Store.Work Control

namespace Store

/-! What each filter asks for: every member that is set holds of the record. -/

def ProductFilter.Selects (f : ProductFilter) (p : Product) : Prop :=
  (∀ i ∈ f.id, p.id = i) ∧ ∀ n ∈ f.name, p.name = n

def PoolFilter.Selects (f : PoolFilter) (p : Pool) : Prop :=
  (∀ i ∈ f.id, p.id = i) ∧ (∀ l ∈ f.ids, p.id ∈ l) ∧ (∀ n ∈ f.name, p.name = n) ∧
    ∀ i ∈ f.productId, p.productId = i

def BfeClusterFilter.Selects (f : BfeClusterFilter) (b : BfeCluster) : Prop :=
  (∀ n ∈ f.name, b.name = n) ∧ ∀ i ∈ f.poolId, b.poolId = i

def SubClusterFilter.Selects (f : SubClusterFilter) (s : SubCluster.Record) : Prop :=
  (∀ i ∈ f.id, s.id = i) ∧ (∀ i ∈ f.productId, s.productId = i) ∧ (∀ l ∈ f.names, s.name ∈ l) ∧
    (∀ i ∈ f.clusterId, s.clusterId = some i) ∧ ∀ i ∈ f.poolId, s.poolId = i

def ClusterFilter.Selects (f : ClusterFilter) (c : Cluster.Record) : Prop :=
  (∀ i ∈ f.id, c.id = i) ∧ (∀ n ∈ f.name, c.name = n) ∧ ∀ i ∈ f.productId, c.productId = i

def DomainFilter.Selects (f : DomainFilter) (d : Domain) : Prop :=
  (∀ i ∈ f.productId, d.productId = i) ∧ ∀ n ∈ f.name, d.name = n

def CertificateFilter.Selects (f : CertificateFilter) (c : Certificate) : Prop :=
  (∀ n ∈ f.name, c.name = n) ∧ ∀ b ∈ f.isDefault, c.isDefault = b

theorem ProductFilter.admits_iff (f : ProductFilter) (p : Product) :
    f.admits p = true ↔ f.Selects p := by
  simp [admits, Selects, Option.all_eq_true]

theorem PoolFilter.admits_iff (f : PoolFilter) (p : Pool) : f.admits p = true ↔ f.Selects p := by
  simp [admits, Selects, Option.all_eq_true, and_assoc]

theorem BfeClusterFilter.admits_iff (f : BfeClusterFilter) (b : BfeCluster) :
    f.admits b = true ↔ f.Selects b := by
  simp [admits, Selects, Option.all_eq_true]

theorem SubClusterFilter.admits_iff (f : SubClusterFilter) (s : SubCluster.Record) :
    f.admits s = true ↔ f.Selects s := by
  simp [admits, Selects, Option.all_eq_true, and_assoc]

theorem ClusterFilter.admits_iff (f : ClusterFilter) (c : Cluster.Record) :
    f.admits c = true ↔ f.Selects c := by
  simp [admits, Selects, Option.all_eq_true, and_assoc]

theorem DomainFilter.admits_iff (f : DomainFilter) (d : Domain) :
    f.admits d = true ↔ f.Selects d := by
  simp [admits, Selects, Option.all_eq_true]

theorem CertificateFilter.admits_iff (f : CertificateFilter) (c : Certificate) :
    f.admits c = true ↔ f.Selects c := by
  simp [admits, Selects, Option.all_eq_true]

/-! Listings. -/

namespace Tables

variable {kind : Kind} {α : Type}

/-- The entries list the wanted records of a table, each under the id it is stored under and once, by
the bytes of their names and, where these are the same, by id. -/
structure Listing (table : SortedMap (Id kind) α) (name : α → String) (wanted : α → Prop)
    (entries : List (Id kind × α)) : Prop where
  complete : ∀ i a, (i, a) ∈ entries ↔ table.get? i = some a ∧ wanted a
  once : (entries.map Prod.fst).Nodup
  ordered : entries.Pairwise fun x y =>
    Text.bytes (name x.2) < Text.bytes (name y.2) ∨ name x.2 = name y.2 ∧ x.1.val < y.1.val

def Lists (table : SortedMap (Id kind) α) (name : α → String) (wanted : α → Prop)
    (found : List α) : Prop :=
  ∃ entries, Listing table name wanted entries ∧ found = entries.map Prod.snd

theorem lists_select {admits : α → Bool} {wanted : α → Prop} (name : α → String)
    (hwanted : ∀ a, admits a = true ↔ wanted a) (table : SortedMap (Id kind) α) :
    Lists table name wanted (select table admits name) := by
  -- The entries of a table come by id, and among those of one name sorting leaves it at that.
  have hbyId : (table.entries.filter fun e => admits e.2).Pairwise fun x y => x.1.val < y.1.val :=
    ((List.pairwise_map.1 table.increasing).imp fun h => compare_lt_iff_lt.1 h).filter _
  have hsorted := pairwise_sortByName (fun e : Id kind × α => name e.2) hbyId
  refine ⟨sortByName (fun e => name e.2) (table.entries.filter fun e => admits e.2), ⟨?_, ?_, ?_⟩, ?_⟩
  · intro i a
    rw [sortByName, List.mem_mergeSort, List.mem_filter, SortedMap.mem_entries, hwanted]
  · rw [sortByName, ((List.mergeSort_perm _ _).map Prod.fst).nodup_iff, List.Nodup, List.pairwise_map]
    refine hbyId.imp fun {x y} hlt heq => ?_
    rw [heq] at hlt
    exact Int.lt_irrefl _ hlt
  · refine hsorted.imp fun {x y} h => ?_
    by_cases hback : name y.2 ≤ name x.2
    · exact Or.inr ⟨String.le_antisymm h.1 hback, h.2 hback⟩
    · exact Or.inl (Text.bytes_lt (String.not_le.1 hback))
  · rw [map_sortByName, select, SortedMap.values, List.filter_map]
    rfl

structure FetchesExactly (t : Tables) : Prop where
  products : ∀ f : ProductFilter, ∃ found, answer (.fetchProducts f) t = (.ok found, t) ∧
    Lists t.products Product.name f.Selects found
  pools : ∀ f : PoolFilter, ∃ found, answer (.fetchPools f) t = (.ok found, t) ∧
    Lists t.pools Pool.name f.Selects found
  bfeClusters : ∀ f : BfeClusterFilter, ∃ found, answer (.fetchBfeClusters f) t = (.ok found, t) ∧
    Lists t.bfeClusters BfeCluster.name f.Selects found
  subClusters : ∀ f : SubClusterFilter, ∃ found, answer (.fetchSubClusters f) t = (.ok found, t) ∧
    Lists t.subClusters SubCluster.Record.name f.Selects found
  clusters : ∀ f : ClusterFilter, ∃ found, answer (.fetchClusters f) t = (.ok found, t) ∧
    Lists t.clusters Cluster.Record.name f.Selects found
  domains : ∀ f : DomainFilter, ∃ found, answer (.fetchDomains f) t = (.ok found, t) ∧
    Lists t.domains Domain.name f.Selects found
  certificates : ∀ f : CertificateFilter, ∃ found,
    answer (.fetchCertificates f) t = (.ok found, t) ∧
      Lists t.certificates Certificate.name f.Selects found

theorem fetchesExactly (t : Tables) : t.FetchesExactly where
  products f := ⟨_, rfl, lists_select _ f.admits_iff _⟩
  pools f := ⟨_, rfl, lists_select _ f.admits_iff _⟩
  bfeClusters f := ⟨_, rfl, lists_select _ f.admits_iff _⟩
  subClusters f := ⟨_, rfl, lists_select _ f.admits_iff _⟩
  clusters f := ⟨_, rfl, lists_select _ f.admits_iff _⟩
  domains f := ⟨_, rfl, lists_select _ f.admits_iff _⟩
  certificates f := ⟨_, rfl, lists_select _ f.admits_iff _⟩

/-! Resolution of sub-clusters. -/

/-- Records are resolved in their order, each to itself with its pool, and nothing is written; this
fails if and only if a pool is missing, and names a record that misses its pool. -/
structure ResolvesExactly (t : Tables) (records : List SubCluster.Record) : Prop where
  joined : ∀ found t', Yields answer t (resolveSubClusters records) found t' →
    t' = t ∧ List.Forall₂ (Joins t) records found
  fails_iff : (∃ f, Fails answer t (resolveSubClusters records) f) ↔ ∃ r ∈ records, Orphan t r
  fault : ∀ f, Fails answer t (resolveSubClusters records) f →
    ∃ r ∈ records, Orphan t r ∧ f = missingPool r

theorem resolvesExactly (t : Tables) (records : List SubCluster.Record) :
    t.ResolvesExactly records := by
  rcases resolveSubClusters_cases t records with ⟨found, hfound, hall⟩ | ⟨r, hr, horphan, hfails⟩
  · refine ⟨?_, ⟨?_, ?_⟩, ?_⟩
    · intro found' t' hw
      obtain ⟨rfl, rfl⟩ := hw.unique hfound
      exact ⟨rfl, hall⟩
    · rintro ⟨f, hf⟩
      exact absurd hf hfound.not_fails
    · rintro ⟨r, hr, horphan⟩
      obtain ⟨s, -, hjoins⟩ := exists_left_of_forall₂ hall.flip hr
      exact absurd horphan (Joins.not_orphan hjoins)
    · intro f hf
      exact absurd hf hfound.not_fails
  · refine ⟨?_, ⟨fun _ => ⟨r, hr, horphan⟩, fun _ => ⟨_, hfails⟩⟩, ?_⟩
    · intro found t' hw
      exact absurd hfails hw.not_fails
    · intro f hf
      exact ⟨r, hr, horphan, Except.error.inj (hf.symm.trans hfails)⟩

/-- In any tables fetches are complete, free of repetitions and in order, and sub-clusters are resolved
as long as no pool is missing. The ids are those that records are stored under, which in all tables
that units of work lead to are the records' own. -/
theorem reads_exact (t : Tables) :
    t.FetchesExactly ∧ (∀ records, t.ResolvesExactly records) ∧ (t.Attained → t.Numbered) :=
  ⟨fetchesExactly t, resolvesExactly t, Attained.numbered⟩

def twinPools : Work Unit := do
  let _ ← ask (.createPool ⟨"BFE.é", Product.builtinId, .bfe, .static, []⟩)
  let _ ← ask (.createPool ⟨"BFE.é", Product.builtinId, .bfe, .static, []⟩)
  let _ ← ask (.createPool ⟨"BFE.z", Product.builtinId, .bfe, .static, []⟩)

def recordOn (pool : PoolId) : SubCluster.Record := ⟨⟨7⟩, "west", Product.builtinId, "", pool, none⟩

/-- Ids that are asked for twice, or belong to no pool, make no difference to what is fetched; a record
with such a pool cannot be resolved. -/
theorem twinPools_read :
    ∃ t : Tables, t.Attained ∧ t.Numbered ∧
      (∃ found, answer (.fetchPools { ids := some [⟨3⟩, ⟨9⟩, ⟨3⟩, ⟨2⟩, ⟨4⟩] }) t = (.ok found, t) ∧
        found.map Pool.id = [⟨4⟩, ⟨2⟩, ⟨3⟩] ∧
        Lists t.pools Pool.name
          (PoolFilter.Selects { ids := some [⟨3⟩, ⟨9⟩, ⟨3⟩, ⟨2⟩, ⟨4⟩] }) found) ∧
      (∃ found, Yields answer t (resolveSubClusters [recordOn ⟨3⟩, recordOn ⟨2⟩]) found t ∧
        List.Forall₂ (Joins t) [recordOn ⟨3⟩, recordOn ⟨2⟩] found) ∧
      ∃ f, Fails answer t (resolveSubClusters [recordOn ⟨3⟩, recordOn ⟨9⟩]) f := by
  have hattained : (twinPools.run answer start).2.Attained := .work .start _
  obtain ⟨hfetches, hresolves, hnumbered⟩ := reads_exact (twinPools.run answer start).2
  obtain ⟨pools, hpools, hlists⟩ := hfetches.pools { ids := some [⟨3⟩, ⟨9⟩, ⟨3⟩, ⟨2⟩, ⟨4⟩] }
  have hstored : ∀ r ∈ [recordOn ⟨3⟩, recordOn ⟨2⟩], ¬ Orphan (twinPools.run answer start).2 r := by
    unfold Orphan
    decide +kernel
  have horphan : Orphan (twinPools.run answer start).2 (recordOn ⟨9⟩) := by
    unfold Orphan
    decide +kernel
  refine ⟨_, hattained, hnumbered hattained, ⟨pools, hpools, ?_, hlists⟩, ?_,
    (hresolves _).fails_iff.2 ⟨recordOn ⟨9⟩, by decide, horphan⟩⟩
  · obtain rfl := Except.ok.inj (congrArg Prod.fst hpools)
    have hvalues : (twinPools.run answer start).2.pools.values =
        [⟨⟨2⟩, "BFE.é", Product.builtinId, .bfe, .static, []⟩,
          ⟨⟨3⟩, "BFE.é", Product.builtinId, .bfe, .static, []⟩,
          ⟨⟨4⟩, "BFE.z", Product.builtinId, .bfe, .static, []⟩] := by decide +kernel
    simp [select, hvalues, PoolFilter.admits, sortByName, List.mergeSort]
  · rcases resolveSubClusters_cases _ [recordOn ⟨3⟩, recordOn ⟨2⟩] with
      ⟨found, hfound, -⟩ | ⟨r, hr, hmissing, -⟩
    · exact ⟨found, hfound, ((hresolves _).joined _ _ hfound).2⟩
    · exact absurd hmissing (hstored r hr)

end Tables
end Store
end FleetControl
