import FleetControl.Control.Lookup
import FleetControl.Proofs.Mounting
import FleetControl.Proofs.Work
import Mathlib.Data.List.Forall2

/-!
The reads that managers share, on tables whose records are kept under their ids: what they find is
stored, and they change nothing.
-/

namespace FleetControl.Store

def Request.fetches : Request → Bool
  | fetchProducts _ | fetchPools _ | fetchBfeClusters _ | fetchSubClusters _ | fetchClusters _
  | fetchLoadMatrix _ | fetchDomains _ | fetchRouteRules _ | fetchCertificates _ => true
  | _ => false

namespace Tables

open Work

variable {t t' : Tables} {α : Type}

theorem answer_fetches {r : Request} (hr : r.fetches = true) (t : Tables) : (answer r t).2 = t := by
  cases r <;> first | rfl | cases hr

theorem fetches_run {w : Work α} (hw : w.Only (·.fetches = true)) (t : Tables) :
    (w.run answer t).2 = t :=
  hw.preserves (I := (· = t)) (fun r s hr hs => by rw [answer_fetches hr, hs]) rfl

theorem fetches_yields {w : Work α} {a : α} (hw : w.Only (·.fetches = true))
    (h : Yields answer t w a t') : t' = t := by
  have := fetches_run hw t
  rw [show w.run answer t = _ from h] at this
  exact this

def bound (t : Tables) (cluster : ClusterId) : List SubCluster.Record :=
  select t.subClusters (SubClusterFilter.admits { clusterId := some cluster }) (·.name)

def boundNames (t : Tables) (cluster : ClusterId) : List String := (t.bound cluster).map (·.name)

def fleet (t : Tables) : List String :=
  (select t.bfeClusters (BfeClusterFilter.admits {}) (·.name)).map (·.name)

theorem Numbered.mem_bound (h : t.Numbered) {c : ClusterId} {s : SubCluster.Record} :
    s ∈ t.bound c ↔ t.subClusters.get? s.id = some s ∧ s.clusterId = some c := by
  rw [bound, h.subClusters.mem_select]
  simp [SubClusterFilter.admits]

theorem Numbered.mem_boundNames (h : t.Numbered) {c : ClusterId} {n : String} :
    n ∈ t.boundNames c ↔
      ∃ i s, t.subClusters.get? i = some s ∧ s.clusterId = some c ∧ s.name = n := by
  simp only [boundNames, List.mem_map, h.mem_bound]
  constructor
  · rintro ⟨s, ⟨hs, hc⟩, rfl⟩
    exact ⟨s.id, s, hs, hc, rfl⟩
  · rintro ⟨i, s, hs, hc, rfl⟩
    exact ⟨s, ⟨by rw [h.subClusters.own hs]; exact hs, hc⟩, rfl⟩

theorem Numbered.mem_fleet (h : t.Numbered) {n : String} :
    n ∈ t.fleet ↔ ∃ i b, t.bfeClusters.get? i = some b ∧ b.name = n := by
  simp only [fleet, List.mem_map, h.bfeClusters.mem_select]
  constructor
  · rintro ⟨b, ⟨hb, -⟩, rfl⟩
    exact ⟨b.id, b, hb, rfl⟩
  · rintro ⟨i, b, hb, rfl⟩
    exact ⟨b, ⟨by rw [h.bfeClusters.own hb]; exact hb, rfl⟩, rfl⟩

end Tables
end FleetControl.Store

namespace FleetControl.Control

open Store Store.Work Store.Tables

variable {t t' : Tables} {product : Product} {name : String}

theorem requireProduct_yields (h : t.Numbered) {p : Product}
    (hw : Yields answer t (requireProduct name) p t') :
    t' = t ∧ t.products.get? p.id = some p ∧ p.name = name := by
  simp only [requireProduct, yields_bind, yields_ask, yields_require, answer] at hw
  obtain ⟨found, _, hfetch, hhead, rfl⟩ := hw
  cases hfetch
  obtain ⟨hget, hadm⟩ := h.products.head?_select hhead
  exact ⟨rfl, hget, by simpa [ProductFilter.admits] using hadm⟩

theorem requirePool_yields (h : t.Numbered) {p : Pool}
    (hw : Yields answer t (requirePool name) p t') :
    t' = t ∧ t.pools.get? p.id = some p ∧ p.name = name := by
  simp only [requirePool, yields_bind, yields_ask, yields_require, answer] at hw
  obtain ⟨found, _, hfetch, hhead, rfl⟩ := hw
  cases hfetch
  obtain ⟨hget, hadm⟩ := h.pools.head?_select hhead
  exact ⟨rfl, hget, by simpa [PoolFilter.admits] using hadm⟩

theorem requireCluster_yields (h : t.Numbered) {c : Cluster.Record}
    (hw : Yields answer t (requireCluster product name) c t') :
    t' = t ∧ t.clusters.get? c.id = some c ∧ c.name = name ∧ c.productId = product.id := by
  simp only [requireCluster, yields_bind, yields_ask, yields_require, answer] at hw
  obtain ⟨found, _, hfetch, hhead, rfl⟩ := hw
  cases hfetch
  obtain ⟨hget, hadm⟩ := h.clusters.head?_select hhead
  exact ⟨rfl, hget, by simpa [ClusterFilter.admits] using hadm⟩

theorem requireLockedCluster_yields (h : t.Numbered) {c : Cluster.Record}
    (hw : Yields answer t (requireLockedCluster product name) c t') :
    t' = t ∧ t.clusters.get? c.id = some c ∧ c.name = name ∧ c.productId = product.id := by
  simp only [requireLockedCluster, yields_bind, yields_ask, yields_require, answer] at hw
  obtain ⟨first, _, hfirst, _, _, hlock, found, _, hfetch, hhead, rfl⟩ := hw
  obtain ⟨rfl, hget, hname, hproduct⟩ := requireCluster_yields h hfirst
  cases hlock
  cases hfetch
  obtain ⟨hget', hadm⟩ := h.clusters.head?_select hhead
  have hid : c.id = first.id := by simpa [ClusterFilter.admits] using hadm
  rw [hid, hget] at hget'
  cases hget'
  exact ⟨rfl, hget, hname, hproduct⟩

theorem requireSubCluster_yields (h : t.Numbered) {s : SubCluster.Record}
    (hw : Yields answer t (requireSubCluster product name) s t') :
    t' = t ∧ t.subClusters.get? s.id = some s ∧ s.productId = product.id ∧ s.name = name := by
  simp only [requireSubCluster, yields_bind, yields_ask, yields_require, answer] at hw
  obtain ⟨found, _, hfetch, hhead, rfl⟩ := hw
  cases hfetch
  obtain ⟨hget, hadm⟩ := h.subClusters.head?_select hhead
  exact ⟨rfl, hget, by simpa [SubClusterFilter.admits] using hadm⟩

theorem requireCertificate_yields (h : t.Numbered) {c : Certificate}
    (hw : Yields answer t (requireCertificate name) c t') :
    t' = t ∧ t.certificates.get? c.id = some c ∧ c.name = name := by
  simp only [requireCertificate, yields_bind, yields_ask, yields_require, answer] at hw
  obtain ⟨found, _, hfetch, hhead, rfl⟩ := hw
  cases hfetch
  obtain ⟨hget, hadm⟩ := h.certificates.head?_select hhead
  exact ⟨rfl, hget, by simpa [CertificateFilter.admits] using hadm⟩

theorem boundSubClusters_yields {c : ClusterId} {l : List SubCluster.Record}
    (hw : Yields answer t (boundSubClusters c) l t') : t' = t ∧ l = t.bound c := by
  simp only [boundSubClusters, yields_ask, answer] at hw
  cases hw
  exact ⟨rfl, rfl⟩

theorem bfeClusterNames_yields {l : List String} (hw : Yields answer t bfeClusterNames l t') :
    t' = t ∧ l = t.fleet := by
  simp only [bfeClusterNames, yields_bind, yields_ask, yields_pure, answer] at hw
  obtain ⟨found, _, hfetch, rfl, rfl⟩ := hw
  cases hfetch
  exact ⟨rfl, rfl⟩

/-! None of these reads does more than fetch. -/

theorem requireProduct_fetches (name : String) : (requireProduct name).Only (·.fetches = true) :=
  only_bind (only_ask rfl) fun _ => only_require _ _

theorem requirePool_fetches (name : String) : (requirePool name).Only (·.fetches = true) :=
  only_bind (only_ask rfl) fun _ => only_require _ _

theorem requireCluster_fetches (p : Product) (name : String) :
    (requireCluster p name).Only (·.fetches = true) :=
  only_bind (only_ask rfl) fun _ => only_require _ _

theorem requireSubCluster_fetches (p : Product) (name : String) :
    (requireSubCluster p name).Only (·.fetches = true) :=
  only_bind (only_ask rfl) fun _ => only_require _ _

theorem requireCertificate_fetches (name : String) :
    (requireCertificate name).Only (·.fetches = true) :=
  only_bind (only_ask rfl) fun _ => only_require _ _

theorem resolveSubClusters_fetches (records : List SubCluster.Record) :
    (resolveSubClusters records).Only (·.fetches = true) := by
  cases records with
  | nil => exact only_done _
  | cons r records => exact only_bind (only_ask rfl) fun _ => only_ofExcept _

theorem assembleCluster_fetches (ignore : Bool) (record : Cluster.Record) :
    (assembleCluster ignore record).Only (·.fetches = true) :=
  only_bind (only_ask rfl) fun records => only_bind (resolveSubClusters_fetches records) fun _ =>
    only_bind (only_ask rfl) fun _ => only_pure _

theorem bfeClusterNames_fetches : bfeClusterNames.Only (·.fetches = true) :=
  only_bind (only_ask rfl) fun _ => only_pure _

theorem clusterInRules_fetches (p : Product) (c : ClusterId) :
    (clusterInRules p c).Only (·.fetches = true) :=
  only_bind (only_ask rfl) fun _ => only_pure _

theorem hostInRules_fetches (host : String) : (hostInRules host).Only (·.fetches = true) :=
  only_bind (only_ask rfl) fun _ => only_pure _

/-! Sub-clusters with their pools. -/

theorem forall₂_of_mapM_ok {α β ε : Type} {f : α → Except ε β} {l : List α} {l' : List β}
    (h : l.mapM f = .ok l') : List.Forall₂ (fun a b => f a = .ok b) l l' := by
  induction l generalizing l' with
  | nil =>
    cases h
    exact .nil
  | cons a l ih =>
    rw [List.mapM_cons] at h
    cases ha : f a with
    | error e => rw [ha] at h; cases h
    | ok b =>
      cases hl : l.mapM f with
      | error e => rw [ha, hl] at h; cases h
      | ok bs =>
        rw [ha, hl] at h
        cases h
        exact .cons ha (ih hl)

theorem mapM_of_forall₂ {α β ε : Type} {f : α → Except ε β} {l : List α} {l' : List β}
    (h : List.Forall₂ (fun a b => f a = .ok b) l l') : l.mapM f = .ok l' := by
  induction h with
  | nil => rfl
  | cons ha _ ih =>
    rw [List.mapM_cons, ha, ih]
    rfl

theorem exists_of_mapM_error {α β ε : Type} {f : α → Except ε β} {l : List α} {e : ε}
    (h : l.mapM f = .error e) : ∃ a ∈ l, f a = .error e := by
  induction l with
  | nil => cases h
  | cons a l ih =>
    rw [List.mapM_cons] at h
    cases ha : f a with
    | error e' =>
      rw [ha] at h
      cases h
      exact ⟨a, List.mem_cons_self, ha⟩
    | ok b =>
      cases hl : l.mapM f with
      | error e' =>
        rw [ha, hl] at h
        cases h
        obtain ⟨x, hx, hfx⟩ := ih hl
        exact ⟨x, List.mem_cons_of_mem _ hx, hfx⟩
      | ok bs =>
        rw [ha, hl] at h
        cases h

theorem exists_forall₂ {α β : Type} {R : α → β → Prop} {l : List α} (h : ∀ a ∈ l, ∃ b, R a b) :
    ∃ l', List.Forall₂ R l l' := by
  induction l with
  | nil => exact ⟨[], .nil⟩
  | cons a l ih =>
    obtain ⟨b, hb⟩ := h a List.mem_cons_self
    obtain ⟨l', hl'⟩ := ih fun a ha => h a (List.mem_cons_of_mem _ ha)
    exact ⟨b :: l', .cons hb hl'⟩

theorem exists_forall₂_of_forall₂ {α β γ : Type} {R : α → β → Prop} {S : β → γ → Prop}
    {Q : α → γ → Prop} {l : List α} {m : List β} (h : List.Forall₂ R l m)
    (hstep : ∀ a ∈ l, ∀ b, R a b → ∃ c, S b c ∧ Q a c) :
    ∃ n, List.Forall₂ S m n ∧ List.Forall₂ Q l n := by
  induction h with
  | nil => exact ⟨[], .nil, .nil⟩
  | cons hab _ ih =>
    obtain ⟨c, hs, hq⟩ := hstep _ List.mem_cons_self _ hab
    obtain ⟨n, hsn, hqn⟩ := ih fun a ha => hstep a (List.mem_cons_of_mem _ ha)
    exact ⟨c :: n, .cons hs hsn, .cons hq hqn⟩

theorem yields_forAll {α β σ : Type} {h : Handler σ} {s : σ} {f : α → Work β} {as : List α}
    {bs : List β} (hall : List.Forall₂ (fun a b => Yields h s (f a) b s) as bs) :
    Yields h s (forAll f as) bs s := by
  induction hall with
  | nil => exact yields_forAll_nil.2 ⟨rfl, rfl⟩
  | cons ha _ ih => exact yields_forAll_cons.2 ⟨_, s, ha, _, ih, rfl⟩

def Joins (t : Tables) (r : SubCluster.Record) (s : SubCluster) : Prop :=
  ∃ pool ∈ t.pools.values, pool.id = r.poolId ∧ s = .ofRecord r pool

def Orphan (t : Tables) (r : SubCluster.Record) : Prop := ∀ pool ∈ t.pools.values, pool.id ≠ r.poolId

theorem Joins.not_orphan {r : SubCluster.Record} {s : SubCluster} (h : Joins t r s) :
    ¬ Orphan t r := by
  obtain ⟨pool, hpool, hid, -⟩ := h
  exact fun horphan => horphan pool hpool hid

theorem attachPool_ok {admits : Pool → Bool} {r : SubCluster.Record} {s : SubCluster}
    (h : attachPool (select t.pools admits (·.name)) r = .ok s) : Joins t r s := by
  rw [attachPool] at h
  split at h
  · rename_i pool hpool
    cases h
    obtain ⟨q, hq, heq⟩ := List.mem_map.1 (SortedMap.mem_of_get?_ofList hpool)
    obtain ⟨hid, rfl⟩ := Prod.mk.inj heq
    exact ⟨q, (mem_select_iff.1 hq).1, hid, rfl⟩
  · cases h

theorem attachPool_error {ids : List PoolId} {r : SubCluster.Record} {f : Fault}
    (hasked : r.poolId ∈ ids)
    (h : attachPool (select t.pools (PoolFilter.admits { ids := some ids }) (·.name)) r = .error f) :
    Orphan t r ∧ f = missingPool r := by
  rw [attachPool] at h
  split at h
  · cases h
  · rename_i hnone
    cases h
    refine ⟨fun q hq hid => ?_, rfl⟩
    have hread : q ∈ select t.pools (PoolFilter.admits { ids := some ids }) (·.name) :=
      mem_select_iff.2 ⟨hq, by simpa [PoolFilter.admits, hid] using hasked⟩
    have hkey : r.poolId ∈ ((select t.pools (PoolFilter.admits { ids := some ids }) (·.name)).map
        fun p => (p.id, p)).map Prod.fst := by
      rw [List.map_map]
      exact List.mem_map.2 ⟨q, hread, hid⟩
    obtain ⟨pool, hpool⟩ := SortedMap.contains_iff.1 (SortedMap.contains_ofList.2 hkey)
    rw [hnone] at hpool
    cases hpool

/-- Records are resolved each to itself with its pool, or one of them has none and is named. -/
theorem resolveSubClusters_cases (t : Tables) (records : List SubCluster.Record) :
    (∃ subClusters, Yields answer t (resolveSubClusters records) subClusters t ∧
      List.Forall₂ (Joins t) records subClusters) ∨
    ∃ r ∈ records, Orphan t r ∧ Fails answer t (resolveSubClusters records) (missingPool r) := by
  cases records with
  | nil => exact Or.inl ⟨[], yields_done.2 ⟨rfl, rfl⟩, .nil⟩
  | cons r records =>
    cases hattach : (r :: records).mapM (attachPool (select t.pools
        (PoolFilter.admits { ids := some ((r :: records).map (·.poolId)) }) (·.name))) with
    | ok subClusters =>
      refine Or.inl ⟨subClusters, ?_, (forall₂_of_mapM_ok hattach).imp fun _ _ => attachPool_ok⟩
      simp only [resolveSubClusters, yields_bind, yields_ask, yields_ofExcept]
      exact ⟨_, t, rfl, hattach, rfl⟩
    | error f =>
      obtain ⟨r', hr', hmissing⟩ := exists_of_mapM_error hattach
      obtain ⟨horphan, rfl⟩ := attachPool_error (List.mem_map_of_mem hr') hmissing
      refine Or.inr ⟨r', hr', horphan, ?_⟩
      simp only [resolveSubClusters, fails_bind, fails_ofExcept]
      exact Or.inr ⟨_, t, yields_ask.2 rfl, hattach⟩

def Resolves (t : Tables) (r : SubCluster.Record) (s : SubCluster) : Prop :=
  ∃ pool, t.pools.get? r.poolId = some pool ∧ s = .ofRecord r pool

theorem Resolves.id_eq {r : SubCluster.Record} {s : SubCluster} (h : Resolves t r s) :
    s.id = r.id := by
  obtain ⟨pool, -, rfl⟩ := h
  rfl

theorem Joins.resolves (hn : t.Numbered) {r : SubCluster.Record} {s : SubCluster}
    (h : Joins t r s) : Resolves t r s := by
  obtain ⟨pool, hpool, hid, hs⟩ := h
  exact ⟨pool, hid ▸ hn.pools.get?_of_mem hpool, hs⟩

theorem resolveSubClusters_yields (h : t.Numbered) {records : List SubCluster.Record}
    {subClusters : List SubCluster}
    (hw : Yields answer t (resolveSubClusters records) subClusters t') :
    t' = t ∧ List.Forall₂ (Resolves t) records subClusters := by
  rcases resolveSubClusters_cases t records with ⟨found, hfound, hall⟩ | ⟨_, _, _, hfails⟩
  · obtain ⟨rfl, rfl⟩ := hw.unique hfound
    exact ⟨rfl, hall.imp fun _ _ hjoins => hjoins.resolves h⟩
  · exact absurd hfails hw.not_fails

theorem assembleCluster_yields (h : t.Numbered) {ignore : Bool} {record : Cluster.Record}
    {cluster : Cluster} (hw : Yields answer t (assembleCluster ignore record) cluster t') :
    t' = t ∧ cluster.record = record ∧
      List.Forall₂ (Resolves t) (t.bound record.id) cluster.subClusters := by
  simp only [assembleCluster, yields_bind, yields_ask, yields_pure] at hw
  obtain ⟨records, _, hrecords, subClusters, _, hsub, scheduler, _, hfetch, rfl, rfl⟩ := hw
  obtain ⟨rfl, rfl⟩ := boundSubClusters_yields hrecords
  obtain ⟨rfl, hall⟩ := resolveSubClusters_yields h hsub
  cases hfetch
  exact ⟨rfl, rfl, hall⟩

theorem map_id_of_forall₂ {records : List SubCluster.Record} {subClusters : List SubCluster}
    (hall : List.Forall₂ (Resolves t) records subClusters) :
    subClusters.map (·.id) = records.map (·.id) := by
  induction hall with
  | nil => rfl
  | cons hr _ ih => rw [List.map_cons, List.map_cons, hr.id_eq, ih]

theorem exists_left_of_forall₂ {α β : Type} {R : α → β → Prop} {l : List α} {l' : List β} {b : β}
    (hall : List.Forall₂ R l l') (hb : b ∈ l') : ∃ a ∈ l, R a b := by
  induction hall with
  | nil => cases hb
  | cons hr _ ih =>
    rcases List.mem_cons.1 hb with rfl | hb
    · exact ⟨_, List.mem_cons_self, hr⟩
    · obtain ⟨a, hmem, hres⟩ := ih hb
      exact ⟨a, List.mem_cons_of_mem _ hmem, hres⟩

def Supplied (t : Tables) : Prop :=
  ∀ s ∈ t.subClusters.values, ∃ q ∈ t.pools.values, q.id = s.poolId

theorem mem_values_of_mem_select {kind : Kind} {α : Type} {table : SortedMap (Id kind) α}
    {admits : α → Bool} {name : α → String} {a : α} (h : a ∈ select table admits name) :
    a ∈ table.values := (mem_select_iff.1 h).1

theorem Supplied.not_orphan (h : Supplied t) {r : SubCluster.Record}
    (hr : r ∈ t.subClusters.values) : ¬ Orphan t r := by
  obtain ⟨q, hq, hid⟩ := h r hr
  exact fun horphan => horphan q hq hid

theorem Supplied.attach (h : Supplied t) {r : SubCluster.Record} (hr : r ∈ t.subClusters.values)
    {ids : List PoolId} (hasked : r.poolId ∈ ids) :
    ∃ s, attachPool (select t.pools (PoolFilter.admits { ids := some ids }) (·.name)) r = .ok s := by
  cases hattach : attachPool (select t.pools (PoolFilter.admits { ids := some ids }) (·.name)) r with
  | ok s => exact ⟨s, rfl⟩
  | error f => exact absurd (attachPool_error hasked hattach).1 (h.not_orphan hr)

theorem Supplied.resolve (h : Supplied t) {records : List SubCluster.Record}
    (hrecords : ∀ r ∈ records, r ∈ t.subClusters.values) :
    ∃ subClusters, Yields answer t (resolveSubClusters records) subClusters t := by
  rcases resolveSubClusters_cases t records with ⟨found, hfound, -⟩ | ⟨r, hr, horphan, -⟩
  · exact ⟨found, hfound⟩
  · exact absurd horphan (h.not_orphan (hrecords r hr))

theorem Supplied.assemble (h : Supplied t) (ignore : Bool) (record : Cluster.Record) :
    ∃ cluster, Yields answer t (assembleCluster ignore record) cluster t := by
  have hstored : ∀ r ∈ t.bound record.id, r ∈ t.subClusters.values :=
    fun r hr => mem_values_of_mem_select hr
  obtain ⟨subClusters, hsub⟩ := h.resolve hstored
  refine ⟨.assemble record subClusters ((t.loadMatrices.get? record.id).map Prod.snd) ignore, ?_⟩
  simp only [assembleCluster, boundSubClusters, yields_bind, yields_ask, yields_pure]
  exact ⟨_, t, rfl, _, t, hsub, _, t, rfl, rfl, rfl⟩

end FleetControl.Control
