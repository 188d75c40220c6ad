import FleetControl.Proofs.Names
import FleetControl.Proofs.References
import Mathlib.Data.List.Nodup

/-!
Every stored matrix passes its own check. The names a matrix is checked against change behind its
back when the fleet grows or shrinks, and then the matrix is rewritten without being checked; what
carries it over is that bound names are distinct and that names of the fleet are distinct. A default
row is only good for fewer sub-clusters than a 32-bit word can count, and a cluster with more of them
can come to have a bad one, but its sub-clusters only change together with a check.
-/

namespace FleetControl.Store.Tables

open Control

variable {t t' : Tables} {ignoreReadiness : Bool} {c : Call} {k : ClusterId}

def place (t : Tables) (i : SubClusterId) : Option (ClusterId × String) :=
  (t.subClusters.get? i).bind fun s => s.clusterId.map fun k => (k, s.name)

theorem place_eq_some {i : SubClusterId} {n : String} :
    t.place i = some (k, n) ↔
      ∃ s, t.subClusters.get? i = some s ∧ s.clusterId = some k ∧ s.name = n := by
  simp [place, Option.bind_eq_some_iff]

theorem Numbered.mem_boundNames_iff (h : t.Numbered) {n : String} :
    n ∈ t.boundNames k ↔ ∃ i, t.place i = some (k, n) := by
  simp only [h.mem_boundNames, place_eq_some]

theorem place_mount_of_not_mem {cluster : Option ClusterId} {ids : List SubClusterId}
    {i : SubClusterId} (hi : i ∉ ids) : (t.mount cluster ids).place i = t.place i := by
  rw [place, get?_mount_of_not_mem hi, place]

theorem place_mount_of_mem {cluster : Option ClusterId} {ids : List SubClusterId}
    {i : SubClusterId} (hi : i ∈ ids) {s : SubCluster.Record}
    (hs : t.subClusters.get? i = some s) :
    (t.mount cluster ids).place i = cluster.map fun k => (k, s.name) := by
  rw [place, get?_mount_of_mem hs hi]
  rfl

theorem place_mount_iff {cluster : Option ClusterId} {ids : List SubClusterId} {i : SubClusterId}
    {n : String} (hk : cluster ≠ some k) (hids : ∀ i ∈ ids, ∀ n, t.place i ≠ some (k, n)) :
    (t.mount cluster ids).place i = some (k, n) ↔ t.place i = some (k, n) := by
  by_cases hi : i ∈ ids
  · have hnot := hids i hi n
    constructor
    · intro hplace
      obtain ⟨s, hs, hmounted, -⟩ := place_eq_some.1 hplace
      obtain ⟨s₀, -, -, hcluster⟩ := exists_of_get?_mount hs
      rw [if_pos hi, hmounted] at hcluster
      exact absurd hcluster.symm hk
    · exact fun hplace => absurd hplace hnot
  · rw [place_mount_of_not_mem hi]

theorem place_eq_none_of_bindable {p : ProductId} {names : List String} {ids : List SubClusterId}
    (hb : Bindable ignoreReadiness t p names ids) {i : SubClusterId} (hi : i ∈ ids) :
    t.place i = none := by
  obtain ⟨s, hs, -, -, hfree, -⟩ := hb.free i hi
  rw [place, hs, Option.bind_some, hfree, Option.map_none]

theorem place_release_iff {r : ClusterId} {ids : List SubClusterId} (hk : k ≠ r)
    (hids : ∀ i ∈ ids, ∃ s, t.subClusters.get? i = some s ∧ s.clusterId = some r)
    {i : SubClusterId} {n : String} :
    (t.mount none ids).place i = some (k, n) ↔ t.place i = some (k, n) := by
  apply place_mount_iff
  · intro hnone
    cases hnone
  · intro j hj n hplace
    obtain ⟨s, hs, hmounted, -⟩ := place_eq_some.1 hplace
    obtain ⟨s', hs', hmounted'⟩ := hids j hj
    rw [hs] at hs'
    cases hs'
    rw [hmounted] at hmounted'
    exact hk (Option.some.inj hmounted')

theorem place_bind_iff {r : ClusterId} {ids : List SubClusterId} (hk : k ≠ r)
    (hids : ∀ i ∈ ids, t.place i = none) {i : SubClusterId} {n : String} :
    (t.mount (some r) ids).place i = some (k, n) ↔ t.place i = some (k, n) := by
  apply place_mount_iff
  · exact fun hsome => hk (Option.some.inj hsome).symm
  · intro j hj n hplace
    rw [hids j hj] at hplace
    cases hplace

/-! Sub-clusters that come, change and go without being mounted keep all places. -/

theorem place_create (hn : t.Numbered) {s : SubCluster.Record} (hfree : s.clusterId = none)
    (hsubs : t'.subClusters = t.subClusters.insert ⟨t.nextId⟩ s) (i : SubClusterId) :
    t'.place i = t.place i := by
  rw [place, place, hsubs, SortedMap.get?_insert]
  split
  · rename_i hnew
    rw [hnew, hn.subClusters.get?_next, Option.bind_some, hfree]
    rfl
  · rfl

theorem place_update {s s' : SubCluster.Record} (hs : t.subClusters.get? s.id = some s)
    (hcluster : s'.clusterId = s.clusterId) (hname : s'.name = s.name)
    (hsubs : t'.subClusters = t.subClusters.insert s.id s') (i : SubClusterId) :
    t'.place i = t.place i := by
  rw [place, place, hsubs, SortedMap.get?_insert]
  split
  · rename_i hold
    rw [hold, hs, Option.bind_some, Option.bind_some, hcluster, hname]
  · rfl

theorem place_delete {s : SubCluster.Record} (hs : t.subClusters.get? s.id = some s)
    (hfree : s.clusterId = none) (hsubs : t'.subClusters = t.subClusters.erase s.id)
    (i : SubClusterId) : t'.place i = t.place i := by
  rw [place, place, hsubs, SortedMap.get?_erase]
  split
  · rename_i hold
    rw [hold, hs, Option.bind_some, hfree]
    rfl
  · rfl

/-! The names bound to a cluster. -/

theorem Numbered.length_boundNames_congr (h : t.Numbered) (h' : t'.Numbered)
    (hplace : ∀ i n, t'.place i = some (k, n) ↔ t.place i = some (k, n)) :
    (t'.boundNames k).length = (t.boundNames k).length := by
  -- Names may repeat as far as is known here, ids do not.
  have hids {u : Tables} (hu : u.Numbered) (i : SubClusterId) :
      i ∈ (u.bound k).map (·.id) ↔ ∃ n, u.place i = some (k, n) := by
    simp only [List.mem_map, hu.mem_bound, place_eq_some]
    constructor
    · rintro ⟨s, ⟨hs, hk⟩, rfl⟩
      exact ⟨s.name, s, hs, hk, rfl⟩
    · rintro ⟨n, s, hs, hk, -⟩
      have hown := hu.subClusters.own hs
      exact ⟨s, ⟨by rw [hown]; exact hs, hk⟩, hown⟩
  have hperm : ((t'.bound k).map (·.id)).Perm ((t.bound k).map (·.id)) := by
    apply (List.perm_ext_iff_of_nodup h'.subClusters.nodup_ids h.subClusters.nodup_ids).2
    intro i
    have hsame : (∃ n, t'.place i = some (k, n)) ↔ ∃ n, t.place i = some (k, n) := by
      simp only [hplace]
    exact (hids h' i).trans (hsame.trans (hids h i).symm)
  have hlength := hperm.length_eq
  simp only [List.length_map] at hlength
  rw [boundNames, boundNames, List.length_map, List.length_map, hlength]

theorem length_boundNames_le (t : Tables) (k : ClusterId) :
    (t.boundNames k).length ≤ t.subClusters.size := by
  rw [boundNames, List.length_map, bound, select, sortByName, List.length_mergeSort]
  have hvalues : t.subClusters.values.length = t.subClusters.size := by
    rw [SortedMap.values, List.length_map, SortedMap.size]
  rw [← hvalues]
  exact List.length_filter_le _ _

theorem nodup_boundNames (hn : t.Numbered) (hnamed : Named t) (hmounted : Mounted t)
    (k : ClusterId) : (t.boundNames k).Nodup := by
  have hbound : (t.bound k).Nodup := List.Nodup.of_map _ hn.subClusters.nodup_ids
  apply hbound.map_on
  intro a ha b hb hname
  obtain ⟨ha, hak⟩ := hn.mem_bound.1 ha
  obtain ⟨hb, hbk⟩ := hn.mem_bound.1 hb
  obtain ⟨r, hr, hra⟩ := hmounted.home ha hak
  obtain ⟨r', hr', hrb⟩ := hmounted.home hb hbk
  rw [hr] at hr'
  cases hr'
  have hkey : subClusterKey a = subClusterKey b := Prod.ext (hra.symm.trans hrb) hname
  have hid := hnamed.subClusters a.id b.id a b ha hb hkey
  rw [hid, hb] at ha
  exact (Option.some.inj ha).symm

/-! Matrices that fit. -/

def Fitting (t : Tables) (k : ClusterId) (m : LoadMatrix) : Prop :=
  m.Fits t.fleet (t.boundNames k) ∨ 2 ^ 31 ≤ (t.boundNames k).length

def Weighted (t : Tables) : Prop :=
  ∀ k p m, t.loadMatrices.get? k = some (p, m) → Fitting t k m

theorem Fitting.congr {m : LoadMatrix} (h : Fitting t k m) (hn : t.Numbered) (hn' : t'.Numbered)
    (hfleet : ∀ b, b ∈ t'.fleet ↔ b ∈ t.fleet)
    (hplace : ∀ i n, t'.place i = some (k, n) ↔ t.place i = some (k, n)) : Fitting t' k m := by
  rcases h with hfits | hmany
  · left
    apply hfits.congr
    · exact fun b => (hfleet b).symm
    · intro n
      simp only [hn.mem_boundNames_iff, hn'.mem_boundNames_iff, hplace]
  · right
    rw [hn.length_boundNames_congr hn' hplace]
    exact hmany

theorem Weighted.congr (h : Weighted t) (hn : t.Numbered) (hn' : t'.Numbered)
    (hrow : ∀ {k e}, t'.loadMatrices.get? k = some e → t.loadMatrices.get? k = some e)
    (hfleet : ∀ b, b ∈ t'.fleet ↔ b ∈ t.fleet) (hplace : ∀ i, t'.place i = t.place i) :
    Weighted t' := by
  intro k p m hget
  apply (h k p m (hrow hget)).congr hn hn' hfleet
  intro i n
  rw [hplace]

theorem weighted_start : Weighted start := by
  intro k p m hget
  simp [start] at hget

/-! The fleet grows and shrinks. -/

theorem Weighted.growFleet (h : Weighted t) (hn : t.Numbered) (hn' : t'.Numbered) (hnamed : Named t)
    (hmounted : Mounted t) {bfe : String} (hfleet : ∀ b, b ∈ t'.fleet ↔ b = bfe ∨ b ∈ t.fleet)
    (hplace : ∀ i, t'.place i = t.place i) {p : ProductId} {m : LoadMatrix}
    (hget : t.loadMatrices.get? k = some (p, m)) : Fitting t' k (t.extendedMatrix bfe k) := by
  have hlength := hn.length_boundNames_congr (k := k) hn' fun i n => by rw [hplace]
  rcases h k p m hget with hfits | hmany
  -- A default row is only good for a count that fits the word.
  · by_cases hcount : (t.boundNames k).length < 2 ^ 31
    · left
      have hrow : LoadMatrix.RowFits (t.boundNames k) (LoadMatrix.defaultRow (t.boundNames k)) :=
        LoadMatrix.defaultRow_fits (nodup_boundNames hn hnamed hmounted k) hfits.unreserved hcount
      rw [extendedMatrix, hget]
      apply (hfits.insertRow hrow).congr
      · intro b
        rw [List.mem_cons, hfleet]
      · intro n
        simp only [hn.mem_boundNames_iff, hn'.mem_boundNames_iff, hplace]
    · right
      omega
  · right
    omega

theorem Weighted.shrinkFleet (h : Weighted t) (hn : t.Numbered) (hn' : t'.Numbered) {bfe : String}
    (hknown : bfe ∈ t.fleet) (hfleet : ∀ b, b ∈ t'.fleet ↔ b ∈ t.fleet ∧ b ≠ bfe)
    (hplace : ∀ i, t'.place i = t.place i) {r : Cluster.Record} {e : ProductId × LoadMatrix}
    (hget : t.shrunkMatrix bfe r = some e) : Fitting t' r.id e.2 := by
  rw [shrunkMatrix, Option.map_eq_some_iff] at hget
  obtain ⟨⟨p, m⟩, hm, rfl⟩ := hget
  rcases h r.id p m hm with hfits | hmany
  · left
    have hrow : (m.row? bfe).isSome = true := hfits.rows.2 hknown
    rw [if_pos hrow]
    apply (hfits.eraseRow hfleet).congr fun _ => Iff.rfl
    intro n
    simp only [hn.mem_boundNames_iff, hn'.mem_boundNames_iff, hplace]
  · right
    rw [hn.length_boundNames_congr hn' fun i n => by rw [hplace]]
    exact hmany

theorem mem_fleet_create (hn : t.Numbered) (hn' : t'.Numbered) {b : BfeCluster}
    (hbfes : t'.bfeClusters = t.bfeClusters.insert ⟨t.nextId⟩ b) (n : String) :
    n ∈ t'.fleet ↔ n = b.name ∨ n ∈ t.fleet := by
  simp only [hn'.mem_fleet, hn.mem_fleet, hbfes]
  constructor
  · rintro ⟨i, x, hx, rfl⟩
    rw [SortedMap.get?_insert] at hx
    split at hx
    · cases hx
      exact Or.inl rfl
    · exact Or.inr ⟨i, x, hx, rfl⟩
  · rintro (rfl | ⟨i, x, hx, rfl⟩)
    · exact ⟨_, b, SortedMap.get?_insert_self _ _ _, rfl⟩
    · exact ⟨i, x, hn.bfeClusters.get?_insert_next hx b, rfl⟩

theorem mem_fleet_delete (hn : t.Numbered) (hn' : t'.Numbered) (hnamed : Named t) {b : BfeCluster}
    (hb : t.bfeClusters.get? b.id = some b) (hbfes : t'.bfeClusters = t.bfeClusters.erase b.id)
    (n : String) : n ∈ t'.fleet ↔ n ∈ t.fleet ∧ n ≠ b.name := by
  simp only [hn'.mem_fleet, hn.mem_fleet, hbfes]
  constructor
  · rintro ⟨i, x, hx, rfl⟩
    rw [SortedMap.get?_erase] at hx
    split at hx
    · cases hx
    · rename_i hi
      exact ⟨⟨i, x, hx, rfl⟩, fun hname => hi (hnamed.bfeClusters i b.id x b hx hb hname)⟩
  · rintro ⟨⟨i, x, hx, rfl⟩, hne⟩
    have hi : i ≠ b.id := by
      rintro rfl
      rw [hb] at hx
      cases hx
      exact hne rfl
    exact ⟨i, x, by rw [SortedMap.get?_erase, if_neg hi, hx], rfl⟩

/-! Clusters come, change what is bound to them, and go. -/

theorem boundNames_create (hn : t.Numbered) (hn' : t'.Numbered) (hmounted : Mounted t)
    {p : ProductId} {names : List String} {ids : List SubClusterId}
    (hb : Bindable ignoreReadiness t p names ids)
    (hsubs : t'.subClusters = (t.mount (some ⟨t.nextId⟩) ids).subClusters) (n : String) :
    n ∈ t'.boundNames ⟨t.nextId⟩ ↔ n ∈ names := by
  have hplaces : ∀ i, t'.place i = (t.mount (some ⟨t.nextId⟩) ids).place i := by
    intro i
    rw [place, hsubs, place]
  simp only [hn'.mem_boundNames_iff, hplaces]
  constructor
  · rintro ⟨i, hi⟩
    by_cases hmem : i ∈ ids
    · obtain ⟨s, hs, -, hname, -⟩ := hb.free i hmem
      rw [place_mount_of_mem hmem hs] at hi
      cases hi
      exact hname
    · rw [place_mount_of_not_mem hmem] at hi
      obtain ⟨s, hs, hk, -⟩ := place_eq_some.1 hi
      obtain ⟨r, hr, -⟩ := hmounted.home hs hk
      rw [hn.clusters.get?_next] at hr
      cases hr
  · intro hname
    obtain ⟨i, hi, s, hs, rfl⟩ := hb.named n hname
    exact ⟨i, place_mount_of_mem hi hs⟩

theorem boundNames_rebind (hn : t.Numbered) (hn' : t'.Numbered) {r : ClusterId} {p : ProductId}
    {target : List String} {removed added : List SubClusterId}
    (hreleased : ∀ {i}, i ∈ removed ↔ ∃ s, t.subClusters.get? i = some s ∧
      s.clusterId = some r ∧ s.name ∉ target)
    (hb : Bindable ignoreReadiness t p (Clusters.difference target (t.boundNames r)) added)
    (hsubs : t'.subClusters = ((t.mount none removed).mount (some r) added).subClusters)
    (n : String) : n ∈ t'.boundNames r ↔ n ∈ target := by
  have hplaces : ∀ i, t'.place i = ((t.mount none removed).mount (some r) added).place i := by
    intro i
    rw [place, hsubs, place]
  -- So the two steps do not meet, and can be looked at one by one.
  have hfresh : ∀ i ∈ added, i ∉ removed := by
    intro i hi hgone
    obtain ⟨s, hs, hk, -⟩ := hreleased.1 hgone
    exact hb.not_mem hs hk hi
  simp only [hn'.mem_boundNames_iff, hplaces]
  constructor
  · rintro ⟨i, hi⟩
    by_cases hadded : i ∈ added
    · obtain ⟨s, hs, -, hname, -⟩ := hb.free i hadded
      have hs₁ : (t.mount none removed).subClusters.get? i = some s := by
        rw [get?_mount_of_not_mem (hfresh i hadded), hs]
      rw [place_mount_of_mem hadded hs₁] at hi
      cases hi
      exact (mem_difference.1 hname).1
    · rw [place_mount_of_not_mem hadded] at hi
      by_cases hremoved : i ∈ removed
      · obtain ⟨s, hs, -⟩ := hreleased.1 hremoved
        rw [place_mount_of_mem hremoved hs] at hi
        cases hi
      · rw [place_mount_of_not_mem hremoved] at hi
        obtain ⟨s, hs, hk, rfl⟩ := place_eq_some.1 hi
        by_contra hname
        exact hremoved (hreleased.2 ⟨s, hs, hk, hname⟩)
  · intro hname
    by_cases hbound : n ∈ t.boundNames r
    · obtain ⟨i, hi⟩ := hn.mem_boundNames_iff.1 hbound
      obtain ⟨s, hs, hk, rfl⟩ := place_eq_some.1 hi
      have hremoved : i ∉ removed := by
        intro hgone
        obtain ⟨s', hs', -, hname'⟩ := hreleased.1 hgone
        rw [hs] at hs'
        cases hs'
        exact hname' hname
      exact ⟨i, by rw [place_mount_of_not_mem (hb.not_mem hs hk), place_mount_of_not_mem hremoved, hi]⟩
    · obtain ⟨i, hi, s, hs, rfl⟩ := hb.named n (mem_difference.2 ⟨hname, hbound⟩)
      have hs₁ : (t.mount none removed).subClusters.get? i = some s := by
        rw [get?_mount_of_not_mem (hfresh i hi), hs]
      exact ⟨i, place_mount_of_mem hi hs₁⟩

theorem Weighted.put (h : Weighted t) (hn : t.Numbered) (hn' : t'.Numbered) {r : ClusterId}
    {e : ProductId × LoadMatrix} {names : List String}
    (hmatrices : t'.loadMatrices = t.loadMatrices.insert r e)
    (hfleet : ∀ b, b ∈ t'.fleet ↔ b ∈ t.fleet) (hfits : e.2.Fits t.fleet names)
    (hnames : ∀ n, n ∈ t'.boundNames r ↔ n ∈ names)
    (hplace : ∀ {k}, k ≠ r → ∀ i n, t'.place i = some (k, n) ↔ t.place i = some (k, n)) :
    Weighted t' := by
  intro k p m hget
  rw [hmatrices, SortedMap.get?_insert] at hget
  split at hget
  · rename_i hk
    cases hget
    rw [hk]
    left
    exact hfits.congr (fun b => (hfleet b).symm) fun n => (hnames n).symm
  · rename_i hk
    exact (h k p m hget).congr hn hn' hfleet (hplace hk)

theorem Weighted.effect (h : Weighted t) (hn : t.Numbered) (hnamed : Named t) (hi : Intact t)
    (he : Effect ignoreReadiness t c t') : Weighted t' := by
  have hn' : t'.Numbered := hn.effect he
  -- A matrix belongs to a cluster, so the fleet changes all matrices or none.
  have howner : ∀ {k p m}, t.loadMatrices.get? k = some (p, m) → t.clusters.get? k ≠ none := by
    intro k p m hget hnone
    obtain ⟨r, hr, -⟩ := (hi.balanced k p).1 ⟨m, hget⟩
    rw [hnone] at hr
    cases hr
  cases he with
  | bfeClusterCreated _ _ _ _ _ extended kept =>
    intro k p m hget
    cases hr : t.clusters.get? k with
    | none =>
      rw [kept hr] at hget
      exact absurd hr (howner hget)
    | some r =>
      rw [extended hr] at hget
      cases hget
      obtain ⟨m₀, hm₀⟩ := (hi.balanced k r.productId).2 ⟨r, hr, rfl⟩
      exact h.growFleet hn hn' hnamed hi.mounted (mem_fleet_create hn hn' rfl) (fun _ => rfl) hm₀
  | @bfeClusterDeleted b _ stored shrunk kept =>
    intro k p m hget
    cases hr : t.clusters.get? k with
    | none =>
      rw [kept hr] at hget
      exact absurd hr (howner hget)
    | some r =>
      rw [shrunk hr] at hget
      have hknown : b.name ∈ t.fleet := hn.mem_fleet.2 ⟨b.id, b, stored, rfl⟩
      have hfitting := h.shrinkFleet hn hn' hknown (mem_fleet_delete hn hn' hnamed stored rfl)
        (fun _ => rfl) hget
      rw [hn.clusters.own hr] at hfitting
      exact hfitting
  | subClusterCreated =>
    apply h.congr hn hn' (fun hget => hget) fun _ => Iff.rfl
    exact place_create hn rfl rfl
  | subClusterUpdated _ _ stored =>
    apply h.congr hn hn' (fun hget => hget) fun _ => Iff.rfl
    exact place_update stored (by rfl) (by rfl) rfl
  | subClusterDeleted _ stored _ free =>
    apply h.congr hn hn' (fun hget => hget) fun _ => Iff.rfl
    exact place_delete stored free rfl
  | clusterCreated _ _ _ _ _ _ _ bindable _ fits =>
    apply h.put hn hn' rfl (fun _ => Iff.rfl) fits
    · exact boundNames_create hn hn' hi.mounted bindable rfl
    · intro k hk i n
      exact place_bind_iff hk fun j hj => place_eq_none_of_bindable bindable hj
  | @clusterUpdated p r change ms _ _ _ _ _ kept replaced =>
    cases hscheduler : change.scheduler with
    | none =>
      refine h.congr hn hn' ?_ (fun _ => Iff.rfl) fun _ => rfl
      intro k e hget
      rw [← kept hscheduler]
      exact hget
    | some m₀ =>
      obtain ⟨hfits, hms⟩ := replaced hscheduler
      exact h.put hn hn' hms (fun _ => Iff.rfl) hfits (fun _ => Iff.rfl) fun _ _ _ => Iff.rfl
  | @rebound p r target entry removed added matrix _ _ _ _ _ released bindable _ _ fits =>
    have hon : ∀ i ∈ removed, ∃ s, t.subClusters.get? i = some s ∧ s.clusterId = some r.id := by
      intro i hgone
      obtain ⟨s, hs, hmounted, -⟩ := released.1 hgone
      exact ⟨s, hs, hmounted⟩
    have hfree : ∀ i ∈ added, (t.mount none removed).place i = none := by
      intro i hadded
      have hkept : i ∉ removed := by
        intro hgone
        obtain ⟨s, hs, hmounted⟩ := hon i hgone
        exact bindable.not_mem hs hmounted hadded
      rw [place_mount_of_not_mem hkept, place_eq_none_of_bindable bindable hadded]
    apply h.put hn hn' rfl (fun _ => Iff.rfl) fits
    · exact boundNames_rebind hn hn' released bindable rfl
    · intro k hk i n
      exact (place_bind_iff hk hfree).trans (place_release_iff hk hon)
  | clusterDeleted _ _ _ _ released =>
    intro k q m hget
    rw [SortedMap.get?_erase] at hget
    split at hget
    · cases hget
    · rename_i hk
      apply (h k q m hget).congr hn hn' fun _ => Iff.rfl
      intro i n
      exact place_release_iff hk fun j hj => released.1 hj
  | _ => exact h

theorem Reachable.weighted (h : t.Reachable) : Weighted t :=
  h.invariant weighted_start fun hr hw he => hw.effect hr.numbered hr.named hr.intact he

/-- As long as a word can count the sub-clusters, every stored matrix fits. -/
theorem Reachable.fits (h : t.Reachable) (hword : t.subClusters.size < 2 ^ 31) {p : ProductId}
    {m : LoadMatrix} (hm : t.loadMatrices.get? k = some (p, m)) :
    m.Fits t.fleet (t.boundNames k) := by
  rcases h.weighted k p m hm with hfits | hmany
  · exact hfits
  · have hle := length_boundNames_le t k
    omega

theorem Reachable.checked (h : t.Reachable) (hword : t.subClusters.size < 2 ^ 31)
    {r : Cluster.Record} (hr : t.clusters.get? k = some r) :
    ∃ m, t.loadMatrices.get? k = some (r.productId, m) ∧
      m.check t.fleet (t.boundNames k) = .ok () ∧
      (∀ b, m.rows.contains b = true ↔ b ∈ t.fleet) ∧
      ∀ b row, m.rows.get? b = some row →
        LoadMatrix.sum row = 100 ∧ ∀ n ∈ t.boundNames k, row.contains n = true := by
  obtain ⟨m, hm⟩ := (h.intact.balanced k r.productId).2 ⟨r, hr, rfl⟩
  have hfits := h.fits hword hm
  refine ⟨m, hm, LoadMatrix.check_eq_ok.2 hfits, fun b => hfits.rows, fun b row hrow => ?_⟩
  have hrowFits := hfits.fitting hrow
  exact ⟨hrowFits.total, fun n hn => hrowFits.complete hn⟩

/-- So it is after any events whatever that leave fewer sub-clusters than a 32-bit word counts. -/
theorem run_checked (events : List Event) (hword : (start.run events).subClusters.size < 2 ^ 31)
    {r : Cluster.Record} (hr : (start.run events).clusters.get? k = some r) :
    ∃ m, (start.run events).loadMatrices.get? k = some (r.productId, m) ∧
      m.check (start.run events).fleet ((start.run events).boundNames k) = .ok () ∧
      (∀ b, m.rows.contains b = true ↔ b ∈ (start.run events).fleet) ∧
      ∀ b row, m.rows.get? b = some row →
        LoadMatrix.sum row = 100 ∧ ∀ n ∈ (start.run events).boundNames k, row.contains n = true :=
  Reachable.checked ⟨events, rfl⟩ hword hr

def firstFleet : List Event :=
  [.call {} ⟨0⟩ (.createProduct ⟨"shop", "", [], []⟩),
    .call {} ⟨0⟩ (.createPool "shop" ⟨"web", .static, []⟩),
    .call {} ⟨0⟩ (.createPool "BFE" ⟨"edge", .static, []⟩),
    .call {} ⟨0⟩ (.createSubCluster "shop" ⟨"east", "web", ""⟩),
    .call {} ⟨0⟩ (.createCluster "shop" ⟨"front", "", {}, {}, {}, ["east"], none⟩),
    .call {} ⟨0⟩ (.createBfeCluster ⟨"bfe-a", "BFE.edge", 0⟩)]

theorem firstFleet_checked :
    (start.run firstFleet).subClusters.size < 2 ^ 31 ∧
      (start.run firstFleet).clusters.get? ⟨6⟩ = some ⟨⟨6⟩, "front", ⟨2⟩, "", {}, {}, {}⟩ ∧
      ∃ m, (start.run firstFleet).loadMatrices.get? ⟨6⟩ = some (⟨2⟩, m) ∧
        m.check (start.run firstFleet).fleet ((start.run firstFleet).boundNames ⟨6⟩) = .ok () ∧
        ∀ b row, m.rows.get? b = some row → LoadMatrix.sum row = 100 := by
  have hword : (start.run firstFleet).subClusters.size < 2 ^ 31 := by decide +kernel
  have hfront : (start.run firstFleet).clusters.get? ⟨6⟩ =
      some ⟨⟨6⟩, "front", ⟨2⟩, "", {}, {}, {}⟩ := by decide +kernel
  obtain ⟨m, hm, hcheck, -, hrows⟩ := run_checked firstFleet hword hfront
  exact ⟨hword, hfront, m, hm, hcheck, fun b row hrow => (hrows b row hrow).1⟩

end FleetControl.Store.Tables
