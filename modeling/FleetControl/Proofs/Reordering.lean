import FleetControl.Proofs.Additions
import FleetControl.Proofs.Renaming

/-!
Creations in another order. Two creations that are possible in either order lead to the same tables up
to a swap of their ids, if the default mark goes to the same certificate. So the order in which
records are created cannot be seen in any file.
-/

namespace FleetControl.Store

namespace Renaming

def ofPerm (σ : Equiv.Perm Int) : Renaming where
  product i := ⟨σ i.val⟩
  pool i := ⟨σ i.val⟩
  bfeCluster i := ⟨σ i.val⟩
  subCluster i := ⟨σ i.val⟩
  cluster i := ⟨σ i.val⟩
  domain i := ⟨σ i.val⟩
  certificate i := ⟨σ i.val⟩

end Renaming

section

variable {kind : Kind} {α : Type} {n : Int} {record : α → α}

theorem carries_of_get? {σ : Equiv.Perm Int} {table table' : SortedMap (Id kind) α}
    (h : ∀ i : Id kind, table'.get? ⟨σ i.val⟩ = (table.get? i).map record) :
    Carries (fun i => ⟨σ i.val⟩) record table table' := by
  have hinjective : Function.Injective fun i : Id kind => (⟨σ i.val⟩ : Id kind) := by
    intro i j hij
    have hval : i.val = j.val := σ.injective (congrArg Id.val hij)
    cases i
    cases j
    simpa using hval
  have hnew : (table.entries.map fun e => ((⟨σ e.1.val⟩ : Id kind), record e.2)).Nodup := by
    refine List.Nodup.of_map Prod.fst ?_
    rw [List.map_map]
    have hkeys := table.nodup_keys.map hinjective
    rw [SortedMap.keys, List.map_map] at hkeys
    exact hkeys
  have hold : table'.entries.Nodup := List.Nodup.of_map Prod.fst table'.nodup_keys
  refine (List.perm_ext_iff_of_nodup hnew hold).2 ?_
  rintro ⟨j, b⟩
  rw [List.mem_map, SortedMap.mem_entries]
  constructor
  · rintro ⟨⟨i, a⟩, ha, heq⟩
    obtain ⟨rfl, rfl⟩ := Prod.mk.inj heq
    rw [h, SortedMap.mem_entries.1 ha]
    rfl
  · intro hb
    have hi := h ⟨σ.symm j.val⟩
    rw [show (⟨σ (σ.symm j.val)⟩ : Id kind) = j by rw [Equiv.apply_symm_apply], hb] at hi
    obtain ⟨a, ha, rfl⟩ := Option.map_eq_some_iff.1 hi.symm
    refine ⟨(⟨σ.symm j.val⟩, a), SortedMap.mem_entries.2 ha, ?_⟩
    rw [Equiv.apply_symm_apply]

theorem swap_below {i : Id kind} (h : i.val < n) :
    (⟨Equiv.swap n (n + 1) i.val⟩ : Id kind) = i := by
  rw [Equiv.swap_apply_of_ne_of_ne (by omega) (by omega)]

theorem Indexed.swap_own {id : α → Id kind} {table : SortedMap (Id kind) α} (h : Indexed n id table)
    {i : Id kind} {a : α} (ha : table.get? i = some a) :
    (⟨Equiv.swap n (n + 1) (id a).val⟩ : Id kind) = id a := by
  rw [h.own ha]
  exact swap_below (h.below ha)

theorem get?_swap {table table' : SortedMap (Id kind) α} {a a' b b' : Option α}
    (hfree : ∀ i : Id kind, n ≤ i.val → table.get? i = none)
    (hold : ∀ i : Id kind, table'.get? i = (table.get? i).map record)
    (ha : a.map record = a') (hb : b.map record = b') (i : Id kind) :
    ((table'.insert? ⟨n⟩ b').insert? ⟨n + 1⟩ a').get? ⟨Equiv.swap n (n + 1) i.val⟩ =
      (((table.insert? ⟨n⟩ a).insert? ⟨n + 1⟩ b).get? i).map record := by
  have hfree' : ∀ i : Id kind, n ≤ i.val → table'.get? i = none := by
    intro i hi
    rw [hold, hfree i hi, Option.map_none]
  obtain ⟨i⟩ := i
  simp only [SortedMap.get?_insert?, Id.mk.injEq]
  rcases eq_or_ne i n with rfl | hn
  · rw [Equiv.swap_apply_left, if_pos rfl, if_neg (by omega), if_neg (by omega), if_pos rfl,
      hfree _ (le_refl i), hfree' ⟨i + 1⟩ (by simp), Option.or_none, Option.or_none, ha]
  · rcases eq_or_ne i (n + 1) with rfl | hn'
    · rw [Equiv.swap_apply_right, if_neg (by omega), if_pos rfl, if_pos rfl, if_neg (by omega),
        hfree ⟨n + 1⟩ (by simp), hfree' ⟨n⟩ (le_refl n), Option.or_none, Option.or_none, hb]
    · rw [Equiv.swap_apply_of_ne_of_ne hn hn', if_neg hn', if_neg hn, if_neg hn', if_neg hn, hold]

theorem carries_swap {table table' : SortedMap (Id kind) α} {a a' b b' : Option α}
    (hfree : ∀ i : Id kind, n ≤ i.val → table.get? i = none)
    (hold : ∀ i : Id kind, table'.get? i = (table.get? i).map record)
    (ha : a.map record = a') (hb : b.map record = b') :
    Carries (fun i => ⟨Equiv.swap n (n + 1) i.val⟩) record
      ((table.insert? ⟨n⟩ a).insert? ⟨n + 1⟩ b) ((table'.insert? ⟨n⟩ b').insert? ⟨n + 1⟩ a') :=
  carries_of_get? (get?_swap hfree hold ha hb)

theorem map_withId {δ : Type} {o : Option δ} {withId : δ → Id kind → α}
    (h : ∀ d, o = some d → ∀ i : Id kind,
      record (withId d i) = withId d ⟨Equiv.swap n (n + 1) i.val⟩)
    {i j : Int} (hij : Equiv.swap n (n + 1) i = j) :
    (o.map (withId · ⟨i⟩)).map record = o.map (withId · ⟨j⟩) := by
  subst hij
  cases o with
  | none => rfl
  | some d => exact congrArg some (h d rfl ⟨i⟩)

theorem get?_eq_map {table : SortedMap (Id kind) α} {record : α → α} {i : Id kind}
    (h : ∀ a, table.get? i = some a → record a = a) : table.get? i = (table.get? i).map record := by
  cases hget : table.get? i with
  | none => rfl
  | some a => rw [Option.map_some, h a hget]

end

namespace Tables

def nextSwapped (t : Tables) : Renaming := .ofPerm (Equiv.swap t.nextId (t.nextId + 1))

variable {t : Tables} {x y : Addition} {c d : Call}

section

variable (hn : t.Numbered)

include hn

theorem swap_product {p : ProductId} (hp : t.products.contains p = true) :
    (⟨Equiv.swap t.nextId (t.nextId + 1) p.val⟩ : ProductId) = p := by
  obtain ⟨q, hq⟩ := SortedMap.contains_iff.1 hp
  exact swap_below (hn.products.below hq)

theorem swap_pool {q : PoolId} (hq : t.pools.contains q = true) :
    (⟨Equiv.swap t.nextId (t.nextId + 1) q.val⟩ : PoolId) = q := by
  obtain ⟨pool, hpool⟩ := SortedMap.contains_iff.1 hq
  exact swap_below (hn.pools.below hpool)

theorem swap_cluster {k : ClusterId} (hk : t.clusters.contains k = true) :
    (⟨Equiv.swap t.nextId (t.nextId + 1) k.val⟩ : ClusterId) = k := by
  obtain ⟨c, hc⟩ := SortedMap.contains_iff.1 hk
  exact swap_below (hn.clusters.below hc)

end

theorem nextSwapped_next (t : Tables) :
    t.nextSwapped.cluster ⟨t.nextId⟩ = ⟨t.nextId + 1⟩ :=
  congrArg Id.mk (Equiv.swap_apply_left _ _)

theorem nextSwapped_after (t : Tables) :
    t.nextSwapped.cluster ⟨t.nextId + 1⟩ = ⟨t.nextId⟩ :=
  congrArg Id.mk (Equiv.swap_apply_right _ _)

/-! Records that are there keep their ids and those of what they refer to. -/

section

variable (hc : Consistent t)

include hc

theorem nextSwapped_ofProduct {i : ProductId} {p : Product} (hp : t.products.get? i = some p) :
    t.nextSwapped.ofProduct p = p := by
  have hid := hc.numbered.products.swap_own hp
  simp only [nextSwapped, Renaming.ofPerm, Renaming.ofProduct, hid]

theorem nextSwapped_ofPool {i : PoolId} {q : Pool} (hq : t.pools.get? i = some q) :
    t.nextSwapped.ofPool q = q := by
  have hid := hc.numbered.pools.swap_own hq
  have howner := swap_product hc.numbered (hc.intact.grounded.pools i q hq)
  simp only [nextSwapped, Renaming.ofPerm, Renaming.ofPool, hid, howner]

theorem nextSwapped_ofBfeCluster {i : BfeClusterId} {b : BfeCluster}
    (hb : t.bfeClusters.get? i = some b) : t.nextSwapped.ofBfeCluster b = b := by
  have hid := hc.numbered.bfeClusters.swap_own hb
  obtain ⟨q, hq, -⟩ := hc.intact.hosted i b hb
  have hpool := swap_pool hc.numbered (SortedMap.contains_iff.2 ⟨q, hq⟩)
  simp only [nextSwapped, Renaming.ofPerm, Renaming.ofBfeCluster, hid, hpool]

theorem nextSwapped_ofSubCluster {i : SubClusterId} {s : SubCluster.Record}
    (hs : t.subClusters.get? i = some s) (mounted : Option ClusterId) :
    t.nextSwapped.ofSubCluster { s with clusterId := mounted } =
      { s with clusterId := mounted.map t.nextSwapped.cluster } := by
  have hid := hc.numbered.subClusters.swap_own hs
  have howner := swap_product hc.numbered (hc.intact.grounded.subClusters i s hs)
  obtain ⟨q, hq, -⟩ := hc.intact.served i s hs
  have hpool := swap_pool hc.numbered (SortedMap.contains_iff.2 ⟨q, hq⟩)
  simp only [nextSwapped, Renaming.ofPerm, Renaming.ofSubCluster, hid, howner, hpool]

theorem nextSwapped_mounted {i : SubClusterId} {s : SubCluster.Record}
    (hs : t.subClusters.get? i = some s) : s.clusterId.map t.nextSwapped.cluster = s.clusterId := by
  cases hk : s.clusterId with
  | none => rfl
  | some k =>
    obtain ⟨c, hstored, -⟩ := hc.intact.mounted.home hs hk
    exact congrArg some (swap_cluster hc.numbered (SortedMap.contains_iff.2 ⟨c, hstored⟩))

theorem nextSwapped_ofCluster {i : ClusterId} {c : Cluster.Record}
    (hget : t.clusters.get? i = some c) : t.nextSwapped.ofCluster c = c := by
  have hid := hc.numbered.clusters.swap_own hget
  have howner := swap_product hc.numbered (hc.intact.grounded.clusters i c hget)
  simp only [nextSwapped, Renaming.ofPerm, Renaming.ofCluster, hid, howner]

theorem nextSwapped_ofDomain {i : DomainId} {d : Domain} (hd : t.domains.get? i = some d) :
    t.nextSwapped.ofDomain d = d := by
  have hid := hc.numbered.domains.swap_own hd
  have howner := swap_product hc.numbered (hc.intact.grounded.domains i d hd)
  simp only [nextSwapped, Renaming.ofPerm, Renaming.ofDomain, hid, howner]

theorem nextSwapped_ofRules {p : ProductId} {rules : RouteRules}
    (hget : t.routeRules.get? p = some rules) : t.nextSwapped.ofRules rules = rules := by
  have htarget : ∀ {n k}, t.IsTarget p n k → t.nextSwapped.cluster k = k := by
    rintro n k ⟨c, hstored, -⟩
    exact swap_cluster hc.numbered (SortedMap.contains_iff.2 ⟨c, hstored⟩)
  have htargets := hc.intact.routed p rules hget
  have hmap : ∀ (o : Option ClusterId), (∀ k, o = some k → t.nextSwapped.cluster k = k) →
      o.map t.nextSwapped.cluster = o := by
    intro o ho
    cases o with
    | none => rfl
    | some k => exact congrArg some (ho k rfl)
  have hbasic : rules.basic.map (fun r => { r with clusterId := r.clusterId.map t.nextSwapped.cluster })
      = rules.basic := by
    refine (List.map_congr_left fun r hr => ?_).trans (List.map_id _)
    rw [hmap r.clusterId fun k hk => htarget (htargets.basic r hr k hk), id_eq]
  have hadvanced : rules.advanced.map
      (fun r => { r with clusterId := r.clusterId.map t.nextSwapped.cluster }) = rules.advanced := by
    refine (List.map_congr_left fun r hr => ?_).trans (List.map_id _)
    rw [hmap r.clusterId fun k hk => htarget (htargets.advanced r hr k hk), id_eq]
  rw [Renaming.ofRules, hbasic, hadvanced]

theorem nextSwapped_ofCertificate {i : CertificateId} {c : Certificate}
    (hget : t.certificates.get? i = some c) : t.nextSwapped.ofCertificate c = c := by
  have hid := hc.numbered.certificates.swap_own hget
  simp only [nextSwapped, Renaming.ofPerm, Renaming.ofCertificate, hid]

end

/-! A new record under either id. What it refers to was there before. -/

theorem ofProduct_withId (draft : Product.Draft) (i : ProductId) :
    t.nextSwapped.ofProduct (draft.withId i) = draft.withId (t.nextSwapped.product i) := rfl

section

variable (h : t.Holds x) (hn : t.Numbered)

include h hn

theorem Holds.ofPool (draft : Pool.Draft) (hdraft : x.pool? = some draft) (i : PoolId) :
    t.nextSwapped.ofPool (draft.withId i) = draft.withId (t.nextSwapped.pool i) := by
  have howner := swap_product hn (h.pool draft hdraft)
  simp only [nextSwapped, Renaming.ofPerm, Renaming.ofPool, Pool.Draft.withId, howner]

theorem Holds.ofBfeCluster (draft : BfeCluster.Draft) (hdraft : x.bfeCluster? = some draft)
    (i : BfeClusterId) :
    t.nextSwapped.ofBfeCluster (draft.withId i) = draft.withId (t.nextSwapped.bfeCluster i) := by
  have hpool := swap_pool hn (h.bfeCluster draft hdraft)
  simp only [nextSwapped, Renaming.ofPerm, Renaming.ofBfeCluster, BfeCluster.Draft.withId, hpool]

theorem Holds.ofSubCluster (draft : SubCluster.Draft) (hdraft : x.subCluster? = some draft)
    (i : SubClusterId) :
    t.nextSwapped.ofSubCluster (draft.withId i) = draft.withId (t.nextSwapped.subCluster i) := by
  obtain ⟨howner, hpool⟩ := h.subCluster draft hdraft
  simp only [nextSwapped, Renaming.ofPerm, Renaming.ofSubCluster, SubCluster.Draft.withId,
    swap_product hn howner, swap_pool hn hpool, Option.map_none]

theorem Holds.ofCluster (draft : Cluster.Draft) (hdraft : x.cluster? = some draft) (i : ClusterId) :
    t.nextSwapped.ofCluster (draft.withId i) = draft.withId (t.nextSwapped.cluster i) := by
  have howner := swap_product hn (h.cluster draft hdraft)
  simp only [nextSwapped, Renaming.ofPerm, Renaming.ofCluster, Cluster.Draft.withId, howner]

theorem Holds.ofDomain (draft : Domain.Draft) (hdraft : x.domain? = some draft) (i : DomainId) :
    t.nextSwapped.ofDomain (draft.withId i) = draft.withId (t.nextSwapped.domain i) := by
  have howner := swap_product hn (h.domain draft hdraft)
  simp only [nextSwapped, Renaming.ofPerm, Renaming.ofDomain, Domain.Draft.withId, howner]

end

/-! Tables that are kept under the ids of other records. -/

theorem Consistent.get?_loadMatrices_of_le (hc : Consistent t) {k : ClusterId}
    (hk : t.nextId ≤ k.val) : t.loadMatrices.get? k = none := by
  cases hget : t.loadMatrices.get? k with
  | none => rfl
  | some e =>
    obtain ⟨r, hr, -⟩ := (hc.intact.balanced k e.1).1 ⟨e.2, hget⟩
    exact absurd hk (Int.not_le.2 (hc.numbered.clusters.below hr))

theorem Consistent.get?_routeRules_of_le (hc : Consistent t) {p : ProductId}
    (hp : t.nextId ≤ p.val) : t.routeRules.get? p = none := by
  cases hget : t.routeRules.get? p with
  | none => rfl
  | some rules =>
    obtain ⟨q, hq⟩ := SortedMap.contains_iff.1 (hc.intact.grounded.routeRules p rules hget)
    exact absurd hp (Int.not_le.2 (hc.numbered.products.below hq))

/-! Two additions in either order. -/

/-- Two calls with what they add, each before the other and after it. -/
structure Exchangeable (t : Tables) (c d : Call) (x y : Addition) : Prop where
  start : Consistent t
  first : Consistent (t.add x)
  second : Consistent (t.add y)
  firstSecond : Consistent ((t.add x).add y)
  secondFirst : Consistent ((t.add y).add x)
  adds : t.Adds c x
  addsSecond : t.Adds d y
  addsAfter : (t.add y).Adds c x
  addsSecondAfter : (t.add x).Adds d y

namespace Exchangeable

theorem symm (h : t.Exchangeable c d x y) : t.Exchangeable d c y x :=
  ⟨h.start, h.second, h.first, h.secondFirst, h.firstSecond, h.addsSecond, h.adds,
    h.addsSecondAfter, h.addsAfter⟩

theorem mounts_apart (h : t.Exchangeable c d x y) {i : SubClusterId} {s : SubCluster.Record}
    (hs : t.subClusters.get? i = some s) (hmounts : x.mounts s = true) : y.mounts s = false := by
  rw [Bool.eq_false_iff]
  intro hmounts'
  have hs' := get?_subClusters_add_old h.start.numbered x hs
  rw [Addition.mount_of_mounts hmounts] at hs'
  rw [← Addition.mounts_mounted y s (some ⟨t.nextId⟩)] at hmounts'
  have hfree := h.addsSecondAfter.free h.first.named hs' hmounts'
  cases hfree

theorem not_mounts_new (h : t.Exchangeable c d x y) {draft : SubCluster.Draft}
    (hx : x.subCluster? = some draft) : y.mounts (draft.withId ⟨t.nextId⟩) = false := by
  rw [Bool.eq_false_iff]
  intro hmounts
  -- A sub-cluster of that name was there before, so the first could not create it.
  obtain ⟨i, s, hs, hkey, -⟩ := h.addsSecond.exists_free hmounts
  have hold := get?_subClusters_add_old h.start.numbered x hs
  have hnew := get?_subClusters_add_next h.start.numbered x
  rw [hx, Option.map_some] at hnew
  have hid := h.first.named.subClusters _ _ _ _ hold hnew ((x.mount_key _ s).trans hkey)
  rw [hid] at hs
  exact Int.lt_irrefl _ (h.start.numbered.subClusters.below hs)

theorem subClusters_add_add (h : t.Exchangeable c d x y) :
    ((t.add x).add y).subClusters =
      ((t.subClusters.map fun _ s =>
        y.mount ⟨t.nextId + 1⟩ (x.mount ⟨t.nextId⟩ s)).insert? ⟨t.nextId⟩
        (x.subCluster?.map (·.withId ⟨t.nextId⟩))).insert? ⟨t.nextId + 1⟩
        (y.subCluster?.map (·.withId ⟨t.nextId + 1⟩)) := by
  have hnew : (x.subCluster?.map (·.withId ⟨t.nextId⟩)).map (y.mount ⟨t.nextId + 1⟩) =
      x.subCluster?.map (·.withId ⟨t.nextId⟩) := by
    cases hx : x.subCluster? with
    | none => rfl
    | some draft =>
      exact congrArg some (Addition.mount_of_not_mounts (h.not_mounts_new hx) _)
  rw [add, add]
  dsimp only
  rw [SortedMap.map_insert?, hnew]
  refine congrArg (fun m : SortedMap SubClusterId SubCluster.Record =>
    (m.insert? _ _).insert? _ _) (SortedMap.ext fun i => ?_)
  simp only [SortedMap.get?_map, Option.map_map]
  rfl

theorem mount_mount (h : t.Exchangeable c d x y) {i : SubClusterId} {s : SubCluster.Record}
    (hs : t.subClusters.get? i = some s) :
    x.mount ⟨t.nextId + 1⟩ (y.mount ⟨t.nextId⟩ s) =
      t.nextSwapped.ofSubCluster (y.mount ⟨t.nextId + 1⟩ (x.mount ⟨t.nextId⟩ s)) := by
  have hmoved := nextSwapped_ofSubCluster h.start hs
  cases hx : x.mounts s with
  | true =>
    have hy := h.mounts_apart hs hx
    rw [Addition.mount_of_not_mounts hy, Addition.mount_of_mounts hx, Addition.mount_of_mounts hx,
      Addition.mount_of_not_mounts ((y.mounts_mounted s _).trans hy), hmoved, Option.map_some,
      nextSwapped_next]
  | false =>
    rw [Addition.mount_of_not_mounts hx]
    cases hy : y.mounts s with
    | true =>
      rw [Addition.mount_of_mounts hy, Addition.mount_of_mounts hy,
        Addition.mount_of_not_mounts ((x.mounts_mounted s _).trans hx), hmoved, Option.map_some,
        nextSwapped_after]
    | false =>
      rw [Addition.mount_of_not_mounts hy, Addition.mount_of_not_mounts hy,
        Addition.mount_of_not_mounts hx]
      have hkept := hmoved s.clusterId
      rw [nextSwapped_mounted h.start hs] at hkept
      exact hkept.symm

theorem names_apart (h : t.Exchangeable c d x y) {draft draft' : BfeCluster.Draft}
    (hx : x.bfeCluster? = some draft) (hy : y.bfeCluster? = some draft') :
    draft.name ≠ draft'.name := by
  intro hname
  have hfirst := get?_bfeClusters_add h.first.numbered (get?_bfeClusters_add_next hx) y
  have hsecond := get?_bfeClusters_add_next (t := t.add x) hy
  have hid := h.firstSecond.named.bfeClusters _ _ _ _ hfirst hsecond hname
  exact absurd (congrArg Id.val hid) (by simp)

theorem extend_extend (h : t.Exchangeable c d x y) {k : ClusterId} (hk : k ≠ ⟨t.nextId⟩)
    (e : ProductId × LoadMatrix) :
    x.extend (t.add y) k (y.extend t k e) = y.extend (t.add x) k (x.extend t k e) := by
  cases x with
  | bfeCluster draft =>
    have hrow := LoadMatrix.defaultRow_perm (boundNames_add h.start h.second h.addsSecond hk)
    cases y with
    | bfeCluster draft' =>
      have hrow' := LoadMatrix.defaultRow_perm (boundNames_add h.start h.first h.adds hk)
      have hcomm := e.2.rows.insert_comm (h.names_apart rfl rfl)
        (LoadMatrix.defaultRow (t.boundNames k)) (LoadMatrix.defaultRow (t.boundNames k))
      simp only [Addition.extend, LoadMatrix.insertRow, hrow, hrow', hcomm]
    | _ => simp only [Addition.extend, hrow]
  | _ =>
    cases y with
    | bfeCluster draft' =>
      have hrow' := LoadMatrix.defaultRow_perm (boundNames_add h.start h.first h.adds hk)
      simp only [Addition.extend, hrow']
    | _ => rfl

theorem not_mem_fleet (h : t.Exchangeable c d x y) {draft : BfeCluster.Draft}
    (hx : x.bfeCluster? = some draft) : draft.name ∉ t.fleet := by
  intro hmem
  obtain ⟨i, b, hb, hname⟩ := h.start.numbered.mem_fleet.1 hmem
  have hold := get?_bfeClusters_add h.start.numbered hb x
  have hnew := get?_bfeClusters_add_next (t := t) hx
  have hid := h.first.named.bfeClusters _ _ _ _ hold hnew hname
  rw [hid] at hb
  exact Int.lt_irrefl _ (h.start.numbered.bfeClusters.below hb)

theorem not_given {draft : Cluster.Draft} {names : List String} {m : LoadMatrix}
    {draft' : BfeCluster.Draft}
    (h : t.Exchangeable c d (.cluster draft names (some m)) (.bfeCluster draft')) : False := by
  have hgrown : draft'.name ∈ (t.add (.bfeCluster draft')).fleet :=
    (mem_fleet_create h.start.numbered h.second.numbered rfl _).2 (Or.inl rfl)
  exact h.symm.not_mem_fleet rfl (h.adds.fits.rows.1 (h.addsAfter.fits.rows.2 hgrown))

theorem matrix?_add (h : t.Exchangeable c d x y) :
    (x.matrix? t).map (y.extend (t.add x) ⟨t.nextId⟩) = x.matrix? (t.add y) := by
  cases x with
  | cluster draft names m =>
    cases y with
    | bfeCluster draft' =>
      cases m with
      | some m => exact h.not_given.elim
      | none =>
        have hrow := LoadMatrix.defaultRow_perm (boundNames_add_next h.start h.first h.adds)
        have hfleet := mem_fleet_create h.start.numbered h.second.numbered
          (b := draft'.withId ⟨t.nextId⟩) rfl
        have hrows : (LoadMatrix.defaultFor t.fleet names).rows.insert draft'.name
            (LoadMatrix.defaultRow names) =
              (LoadMatrix.defaultFor (t.add (.bfeCluster draft')).fleet names).rows := by
          refine SortedMap.ext fun b => ?_
          rw [SortedMap.get?_insert, LoadMatrix.get?_defaultFor, LoadMatrix.get?_defaultFor]
          simp only [hfleet, BfeCluster.Draft.withId]
          by_cases hb : b = draft'.name <;> simp [hb]
        simp only [Addition.matrix?, Addition.extend, Option.map_some, Option.getD_none, hrow,
          LoadMatrix.insertRow, hrows]
    | _ => exact Option.map_id'
  | _ => rfl

theorem loadMatrices_add_add (h : t.Exchangeable c d x y) :
    ((t.add x).add y).loadMatrices =
      ((t.loadMatrices.map fun k e => y.extend (t.add x) k (x.extend t k e)).insert? ⟨t.nextId⟩
        (x.matrix? (t.add y))).insert? ⟨t.nextId + 1⟩ (y.matrix? (t.add x)) := by
  rw [← h.matrix?_add, add]
  dsimp only [nextId_add]
  rw [add]
  dsimp only
  rw [SortedMap.map_insert?]
  refine congrArg (fun m : SortedMap ClusterId (ProductId × LoadMatrix) =>
    (m.insert? _ _).insert? _ _) (SortedMap.ext fun k => ?_)
  simp only [SortedMap.get?_map, Option.map_map]
  rfl

theorem ofMatrix_matrix? (h : t.Exchangeable c d x y) (u : Tables) :
    (x.matrix? u).map t.nextSwapped.ofMatrix = x.matrix? u := by
  cases x with
  | cluster draft names m =>
    have howner := swap_product h.start.numbered (h.adds.holds.cluster draft rfl)
    exact congrArg (fun p => some (p, m.getD (.defaultFor u.fleet names))) howner
  | _ => rfl

theorem ofMatrix_extend (h : t.Exchangeable c d x y) {k : ClusterId} {e : ProductId × LoadMatrix}
    (hget : t.loadMatrices.get? k = some e) :
    x.extend (t.add y) k (y.extend t k e) =
      t.nextSwapped.ofMatrix (y.extend (t.add x) k (x.extend t k e)) := by
  obtain ⟨r, hr, howner⟩ := (h.start.intact.balanced k e.1).1 ⟨e.2, hget⟩
  have hk : k ≠ ⟨t.nextId⟩ := by
    rintro rfl
    exact Int.lt_irrefl _ (h.start.numbered.clusters.below hr)
  have hproduct : t.products.contains e.1 = true := howner ▸ h.start.intact.grounded.clusters k r hr
  rw [h.extend_extend hk]
  refine Prod.ext ?_ rfl
  rw [Renaming.ofMatrix, Addition.extend_fst, Addition.extend_fst]
  exact (swap_product h.start.numbered hproduct).symm

theorem get?_unmarked (h : t.Exchangeable c d x y) (i : CertificateId) :
    ((t.add y).add x).unmarked.get? (t.nextSwapped.certificate i) =
      (((t.add x).add y).unmarked.get? i).map t.nextSwapped.ofCertificate := by
  rw [unmarked_add, unmarked_add, unmarked_add, unmarked_add]
  refine get?_swap ?_ ?_ (map_withId ?_ (Equiv.swap_apply_left _ _))
    (map_withId ?_ (Equiv.swap_apply_right _ _)) i
  · intro j hj
    rw [unmarked, SortedMap.get?_map, h.start.numbered.certificates.get?_of_le hj]
    rfl
  · intro j
    refine get?_eq_map fun a ha => ?_
    rw [unmarked, SortedMap.get?_map, Option.map_eq_some_iff] at ha
    obtain ⟨a₀, ha₀, rfl⟩ := ha
    have hkept := nextSwapped_ofCertificate h.start ha₀
    exact congrArg (fun c : Certificate => { c with isDefault := false }) hkept
  · exact fun draft _ i => rfl
  · exact fun draft _ i => rfl

theorem certificates (h : t.Exchangeable c d x y)
    (hdefault : ((t.add x).add y).defaultNames = ((t.add y).add x).defaultNames) :
    Carries t.nextSwapped.certificate t.nextSwapped.ofCertificate ((t.add x).add y).certificates
      ((t.add y).add x).certificates := by
  refine carries_of_get? fun i => ?_
  have hunmarked := h.get?_unmarked i
  simp only [unmarked, SortedMap.get?_map, Option.map_map] at hunmarked
  change ((t.add y).add x).certificates.get? (t.nextSwapped.certificate i) = _
  cases hfirst : ((t.add x).add y).certificates.get? i with
  | none =>
    rw [hfirst, Option.map_none, Option.map_eq_none_iff] at hunmarked
    rw [hunmarked]
    rfl
  | some a =>
    rw [hfirst, Option.map_some, Option.map_eq_some_iff] at hunmarked
    obtain ⟨b, hsecond, hsame⟩ := hunmarked
    have hname := congrArg Certificate.name hsame
    dsimp only [Function.comp, Renaming.ofCertificate] at hname
    -- A name is marked in one order if it is marked in the other.
    have hmark : b.isDefault = a.isDefault := by
      rw [Bool.eq_iff_iff, h.secondFirst.named.isDefault_iff hsecond,
        h.firstSecond.named.isDefault_iff hfirst, hdefault, hname]
    rw [hsecond, Option.map_some]
    refine congrArg some ?_
    calc
      b = { t.nextSwapped.ofCertificate a with isDefault := b.isDefault } :=
        congrArg (fun c : Certificate => { c with isDefault := b.isDefault }) hsame
      _ = t.nextSwapped.ofCertificate a := by
        rw [hmark]
        rfl

/-- The order of two additions shows in their ids only. -/
theorem renamed (h : t.Exchangeable c d x y)
    (hdefault : ((t.add x).add y).defaultNames = ((t.add y).add x).defaultNames) :
    Renamed t.nextSwapped ((t.add x).add y) ((t.add y).add x) where
  products :=
    carries_swap (fun _ => h.start.numbered.products.get?_of_le)
      (fun i => get?_eq_map fun p hp => nextSwapped_ofProduct h.start hp)
      (map_withId (fun draft _ => ofProduct_withId draft) (Equiv.swap_apply_left _ _))
      (map_withId (fun draft _ => ofProduct_withId draft) (Equiv.swap_apply_right _ _))
  pools :=
    carries_swap (fun _ => h.start.numbered.pools.get?_of_le)
      (fun i => get?_eq_map fun q hq => nextSwapped_ofPool h.start hq)
      (map_withId (h.adds.holds.ofPool h.start.numbered) (Equiv.swap_apply_left _ _))
      (map_withId (h.addsSecond.holds.ofPool h.start.numbered) (Equiv.swap_apply_right _ _))
  bfeClusters :=
    carries_swap (fun _ => h.start.numbered.bfeClusters.get?_of_le)
      (fun i => get?_eq_map fun b hb => nextSwapped_ofBfeCluster h.start hb)
      (map_withId (h.adds.holds.ofBfeCluster h.start.numbered) (Equiv.swap_apply_left _ _))
      (map_withId (h.addsSecond.holds.ofBfeCluster h.start.numbered) (Equiv.swap_apply_right _ _))
  subClusters := by
    rw [h.subClusters_add_add, h.symm.subClusters_add_add]
    refine carries_swap ?_ ?_
      (map_withId (h.adds.holds.ofSubCluster h.start.numbered) (Equiv.swap_apply_left _ _))
      (map_withId (h.addsSecond.holds.ofSubCluster h.start.numbered) (Equiv.swap_apply_right _ _))
    · intro i hi
      rw [SortedMap.get?_map, h.start.numbered.subClusters.get?_of_le hi]
      rfl
    · intro i
      rw [SortedMap.get?_map, SortedMap.get?_map]
      cases hs : t.subClusters.get? i with
      | none => rfl
      | some s => exact congrArg some (h.mount_mount hs)
  clusters :=
    carries_swap (fun _ => h.start.numbered.clusters.get?_of_le)
      (fun i => get?_eq_map fun r hr => nextSwapped_ofCluster h.start hr)
      (map_withId (h.adds.holds.ofCluster h.start.numbered) (Equiv.swap_apply_left _ _))
      (map_withId (h.addsSecond.holds.ofCluster h.start.numbered) (Equiv.swap_apply_right _ _))
  loadMatrices := by
    rw [h.loadMatrices_add_add, h.symm.loadMatrices_add_add]
    refine carries_swap ?_ ?_ (h.ofMatrix_matrix? _) (h.symm.ofMatrix_matrix? _)
    · intro k hk
      rw [SortedMap.get?_map, h.start.get?_loadMatrices_of_le hk]
      rfl
    · intro k
      rw [SortedMap.get?_map, SortedMap.get?_map]
      cases hget : t.loadMatrices.get? k with
      | none => rfl
      | some e => exact congrArg some (h.ofMatrix_extend hget)
  domains :=
    carries_swap (fun _ => h.start.numbered.domains.get?_of_le)
      (fun i => get?_eq_map fun r hr => nextSwapped_ofDomain h.start hr)
      (map_withId (h.adds.holds.ofDomain h.start.numbered) (Equiv.swap_apply_left _ _))
      (map_withId (h.addsSecond.holds.ofDomain h.start.numbered) (Equiv.swap_apply_right _ _))
  routeRules :=
    carries_swap (a := none) (b := none) (fun _ => h.start.get?_routeRules_of_le)
      (fun p => get?_eq_map fun rules hget => nextSwapped_ofRules h.start hget) rfl rfl
  certificates := h.certificates hdefault

end Exchangeable

/-! Events that create. -/

def Creates (t : Tables) (e : Event) : Prop := t.nextId < (t.after e).nextId

instance (t : Tables) (e : Event) : Decidable (t.Creates e) :=
  inferInstanceAs (Decidable (t.nextId < (t.after e).nextId))

theorem Creates.exists_call {e : Event} (h : t.Creates e) :
    ∃ settings now c, e = .call settings now c := by
  cases e with
  | call settings now c => exact ⟨settings, now, c, rfl⟩
  | publish now p =>
    rw [Creates] at h
    rcases Export.exportFile_ledger p.fetches now t with hsame | ⟨row, hrow⟩
    · rw [after, hsame] at h
      exact absurd h (Int.lt_irrefl _)
    · rw [after, hrow] at h
      exact absurd h (Int.lt_irrefl _)

/-- Creations that are possible in either order, with the default mark on the same certificate in the
end. -/
structure Independent (t : Tables) (e f : Event) : Prop where
  first : t.Creates e
  second : t.Creates f
  firstAfter : (t.after f).Creates e
  secondAfter : (t.after e).Creates f
  marks : ((t.after e).after f).defaultNames = ((t.after f).after e).defaultNames

theorem Independent.renamed {e f : Event} (ht : t.Reachable) (h : t.Independent e f) :
    Renamed t.nextSwapped ((t.after e).after f) ((t.after f).after e) := by
  obtain ⟨settings, now, c, rfl⟩ := h.first.exists_call
  obtain ⟨settings', now', d, rfl⟩ := h.second.exists_call
  have hstart := ht.consistent
  have hfirst := (ht.after (.call settings now c)).consistent
  have hsecond := (ht.after (.call settings' now' d)).consistent
  have hfirstSecond := ((ht.after (.call settings now c)).after (.call settings' now' d)).consistent
  have hsecondFirst := ((ht.after (.call settings' now' d)).after (.call settings now c)).consistent
  obtain ⟨x, hx, hafter⟩ := call_adds hstart settings now c h.first
  obtain ⟨y, hy, hafter'⟩ := call_adds hstart settings' now' d h.second
  obtain ⟨y', hy', hboth⟩ := call_adds hfirst settings' now' d h.secondAfter
  obtain ⟨x', hx', hboth'⟩ := call_adds hsecond settings now c h.firstAfter
  have hmarks := h.marks
  rw [hboth] at hfirstSecond hmarks ⊢
  rw [hboth'] at hsecondFirst hmarks ⊢
  rw [hafter] at hfirst hfirstSecond hmarks hy' ⊢
  rw [hafter'] at hsecond hsecondFirst hmarks hx' ⊢
  obtain rfl := hx.unique hstart.numbered hsecond.named hx'
  obtain rfl := hy.unique hstart.numbered hfirst.named hy'
  exact Exchangeable.renamed
    ⟨hstart, hfirst, hsecond, hfirstSecond, hsecondFirst, hx, hy, hx', hy'⟩ hmarks

/-- Two runs that end in the same tables up to the names of ids, whatever happened on the way, have the
same files under the same signatures. So have the two runs that end with independent creations in one
order and in the other. -/
theorem run_renamed (events : List Event) :
    (∀ events' ρ, Renamed ρ (start.run events) (start.run events') →
      SameFiles (start.run events) (start.run events')) ∧
    ∀ e f, Independent (start.run events) e f →
      SameFiles (start.run (events ++ [e, f])) (start.run (events ++ [f, e])) := by
  have hreachable : ∀ events', (start.run events').Reachable := fun events' => ⟨events', rfl⟩
  constructor
  · intro events' ρ h
    exact sameFiles_of_renamed h (hreachable events).consistent (hreachable events').consistent
  · intro e f h
    have hrenamed := h.renamed (hreachable events)
    rw [run_append, run_append]
    exact sameFiles_of_renamed hrenamed (((hreachable events).after e).after f).consistent
      (((hreachable events).after f).after e).consistent

def gameFirst : List Event :=
  [.call {} ⟨0⟩ (.createProduct ⟨"game", "", [], []⟩),
    .call {} ⟨0⟩ (.createProduct ⟨"shop", "", [], []⟩),
    .call {} ⟨0⟩ (.createPool "BFE" ⟨"edge", .static, []⟩),
    .call {} ⟨0⟩ (.createPool "shop" ⟨"web", .static,
      [⟨"web-1", "10.0.0.1", 1, .ofList [("Default", 8080)], ∅⟩]⟩),
    .call {} ⟨0⟩ (.createBfeCluster ⟨"bfe-a", "BFE.edge", 0⟩),
    .call {} ⟨0⟩ (.createSubCluster "shop" ⟨"east", "web", ""⟩),
    .call {} ⟨0⟩ (.createCluster "shop" ⟨"front", "", {}, {}, {}, ["east"], none⟩),
    .call {} ⟨0⟩ (.createDomain "game" ⟨"game.example", false, false⟩),
    .call {} ⟨0⟩ (.createDomain "shop" ⟨"shop.example", false, false⟩),
    .call {} ⟨0⟩ (.replaceRules "shop" ⟨[⟨["shop.example"], [], "front", none, ""⟩],
      [⟨"rest", "default_t()", "front", none, ""⟩]⟩),
    .call {} ⟨0⟩ (.createCertificate ⟨"wild", "", true, "wild.crt", "wild.key", ""⟩)]

def shopFirst : List Event :=
  [.call {} ⟨0⟩ (.createCertificate ⟨"wild", "", true, "wild.crt", "wild.key", ""⟩),
    .call {} ⟨0⟩ (.createProduct ⟨"draft", "", [], []⟩),
    .call {} ⟨0⟩ (.deleteProduct "draft"),
    .call {} ⟨0⟩ (.createProduct ⟨"shop", "", [], []⟩),
    .call {} ⟨0⟩ (.createDomain "shop" ⟨"shop.example", false, false⟩),
    .call {} ⟨0⟩ (.createPool "shop" ⟨"web", .static,
      [⟨"web-1", "10.0.0.1", 1, .ofList [("Default", 8080)], ∅⟩]⟩),
    .call {} ⟨0⟩ (.createSubCluster "shop" ⟨"east", "web", ""⟩),
    .call {} ⟨0⟩ (.createCluster "shop" ⟨"front", "", {}, {}, {}, ["east"], none⟩),
    .call {} ⟨0⟩ (.replaceRules "shop" ⟨[⟨["shop.example"], [], "front", none, ""⟩],
      [⟨"rest", "default_t()", "front", none, ""⟩]⟩),
    .call {} ⟨0⟩ (.createProduct ⟨"game", "", [], []⟩),
    .call {} ⟨0⟩ (.createDomain "game" ⟨"game.example", false, false⟩),
    .call {} ⟨0⟩ (.createPool "BFE" ⟨"edge", .static, []⟩),
    .call {} ⟨0⟩ (.createBfeCluster ⟨"bfe-a", "BFE.edge", 0⟩)]

def prepared : List Event :=
  [.call {} ⟨0⟩ (.createProduct ⟨"shop", "", [], []⟩),
    .call {} ⟨0⟩ (.createPool "BFE" ⟨"edge", .static, []⟩),
    .call {} ⟨0⟩ (.createPool "shop" ⟨"web", .static,
      [⟨"web-1", "10.0.0.1", 1, .ofList [("Default", 8080)], ∅⟩]⟩),
    .call {} ⟨0⟩ (.createSubCluster "shop" ⟨"east", "web", ""⟩)]

def createFront : Event :=
  .call {} ⟨0⟩ (.createCluster "shop" ⟨"front", "", {}, {}, {}, ["east"], none⟩)

def createBfe : Event := .call {} ⟨0⟩ (.createBfeCluster ⟨"bfe-a", "BFE.edge", 0⟩)

/-- Products, pools and all the rest have other ids in other orders, and every file is the same. A
matrix that comes before its row ends up as one that comes after it. -/
theorem gameFirst_renamed :
    (∃ ρ, Renamed ρ (start.run gameFirst) (start.run shopFirst) ∧
      (start.run gameFirst).products.keys ≠ (start.run shopFirst).products.keys ∧
      SameFiles (start.run gameFirst) (start.run shopFirst)) ∧
    Independent (start.run prepared) createFront createBfe ∧
    SameFiles (start.run (prepared ++ [createFront, createBfe]))
      (start.run (prepared ++ [createBfe, createFront])) := by
  have hrenamed : Renamed
      (.ofPairs [(2, 9), (3, 4), (4, 11), (5, 6), (6, 12), (7, 7), (8, 8), (9, 10), (10, 5), (11, 2)])
      (start.run gameFirst) (start.run shopFirst) := by
    constructor <;> decide +kernel
  have hindependent : Independent (start.run prepared) createFront createBfe := by
    constructor <;> decide +kernel
  refine ⟨⟨_, hrenamed, by decide +kernel, ?_⟩, hindependent, ?_⟩
  · exact (run_renamed gameFirst).1 _ _ hrenamed
  · exact (run_renamed prepared).2 _ _ hindependent

end Tables
end FleetControl.Store
