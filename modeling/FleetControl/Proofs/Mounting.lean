import FleetControl.Proofs.Tables

/-!
Mounting sub-clusters one by one comes to the same as mounting them all at once, and so does
releasing them. A list can be mounted just when each of its sub-clusters is free and listed once, and
releasing it leads back.
-/

namespace FleetControl.Store.Tables

def mount (t : Tables) (cluster : Option ClusterId) (ids : List SubClusterId) : Tables :=
  { t with
    subClusters := t.subClusters.map fun i s =>
      if i ∈ ids then { s with clusterId := cluster } else s }

variable {t t' : Tables} {cluster : Option ClusterId}

theorem get?_mount (t : Tables) (cluster : Option ClusterId) (ids : List SubClusterId)
    (i : SubClusterId) : (t.mount cluster ids).subClusters.get? i =
      (t.subClusters.get? i).map fun s => if i ∈ ids then { s with clusterId := cluster } else s :=
  SortedMap.get?_map _ t.subClusters i

theorem get?_mount_of_mem {ids : List SubClusterId} {i : SubClusterId} {s : SubCluster.Record}
    (hs : t.subClusters.get? i = some s) (hi : i ∈ ids) :
    (t.mount cluster ids).subClusters.get? i = some { s with clusterId := cluster } := by
  rw [get?_mount, hs, Option.map_some, if_pos hi]

theorem get?_mount_of_not_mem {ids : List SubClusterId} {i : SubClusterId}
    (hi : i ∉ ids) : (t.mount cluster ids).subClusters.get? i = t.subClusters.get? i := by
  rw [get?_mount]
  cases t.subClusters.get? i with
  | none => rfl
  | some s => rw [Option.map_some, if_neg hi]

theorem exists_of_get?_mount {ids : List SubClusterId} {i : SubClusterId} {s : SubCluster.Record}
    (h : (t.mount cluster ids).subClusters.get? i = some s) :
    ∃ s₀, t.subClusters.get? i = some s₀ ∧ s = { s₀ with clusterId := s.clusterId } ∧
      s.clusterId = if i ∈ ids then cluster else s₀.clusterId := by
  rw [get?_mount, Option.map_eq_some_iff] at h
  obtain ⟨s₀, hs, rfl⟩ := h
  refine ⟨s₀, hs, ?_⟩
  split <;> simp

theorem forall_mount {P : SubCluster.Record → Prop}
    (hP : ∀ s mounted, P s → P { s with clusterId := mounted })
    (h : ∀ i s, t.subClusters.get? i = some s → P s) (cluster : Option ClusterId)
    (ids : List SubClusterId) (i : SubClusterId) (s : SubCluster.Record)
    (hget : (t.mount cluster ids).subClusters.get? i = some s) : P s := by
  obtain ⟨s₀, hs, heq, -⟩ := exists_of_get?_mount hget
  rw [heq]
  exact hP s₀ _ (h i s₀ hs)

theorem mount_nil (t : Tables) (cluster : Option ClusterId) : t.mount cluster [] = t := by
  have : (t.mount cluster []).subClusters = t.subClusters :=
    SortedMap.ext fun i => by rw [get?_mount]; cases t.subClusters.get? i <;> simp
  change { t with subClusters := (t.mount cluster []).subClusters } = t
  rw [this]

theorem mount_cons (t : Tables) (cluster : Option ClusterId) (i : SubClusterId)
    (ids : List SubClusterId) : (t.mount cluster [i]).mount cluster ids = t.mount cluster (i :: ids) := by
  have : ((t.mount cluster [i]).mount cluster ids).subClusters =
      (t.mount cluster (i :: ids)).subClusters := by
    refine SortedMap.ext fun j => ?_
    simp only [get?_mount, List.mem_cons, List.not_mem_nil, or_false]
    cases t.subClusters.get? j with
    | none => rfl
    | some s => by_cases hj : j = i <;> by_cases hm : j ∈ ids <;> simp [hj, hm]
  change { t with subClusters := ((t.mount cluster [i]).mount cluster ids).subClusters } =
    { t with subClusters := (t.mount cluster (i :: ids)).subClusters }
  rw [this]

theorem mount_single {i : SubClusterId} {r : SubCluster.Record}
    (h : t.subClusters.get? i = some r) (cluster : Option ClusterId) :
    { t with subClusters := t.subClusters.insert i { r with clusterId := cluster } } =
      t.mount cluster [i] := by
  have : t.subClusters.insert i { r with clusterId := cluster } =
      (t.mount cluster [i]).subClusters := by
    refine SortedMap.ext fun j => ?_
    rw [get?_mount, SortedMap.get?_insert]
    by_cases hj : j = i
    · simp [hj, h]
    · cases t.subClusters.get? j <;> simp [hj]
  rw [this]; rfl

theorem bindOne_ok {c : ClusterId} {i : SubClusterId} (h : t.bindOne c i = .ok t') :
    t' = t.mount (some c) [i] ∧ ∃ r, t.subClusters.get? i = some r ∧ r.clusterId = none := by
  rw [bindOne] at h
  split at h
  · cases h
  · rename_i r hr
    split at h
    · cases h
    · cases h
      exact ⟨mount_single hr _, r, hr, ‹_›⟩

theorem unbindOne_ok {i : SubClusterId} (h : t.unbindOne i = .ok t') : t' = t.mount none [i] := by
  rw [unbindOne] at h
  split at h
  · cases h
  · cases h
    exact mount_single ‹_› _

theorem writeEach_cons_ok {ι : Type} {write : Tables → ι → Except Fault Tables} {i : ι}
    {rest : List ι} (h : writeEach write (i :: rest) t = (.ok (), t')) :
    ∃ t₁, write t i = .ok t₁ ∧ writeEach write rest t₁ = (.ok (), t') := by
  rw [writeEach] at h
  split at h
  · exact ⟨_, ‹_›, h⟩
  · cases h

theorem bind_ok {c : ClusterId} {ids : List SubClusterId}
    (h : answer (.bindSubClusters c ids) t = (.ok (), t')) :
    t' = t.mount (some c) ids ∧
      ∀ i ∈ ids, ∃ r, t.subClusters.get? i = some r ∧ r.clusterId = none := by
  rw [answer] at h
  induction ids generalizing t with
  | nil =>
    cases h
    exact ⟨(mount_nil _ _).symm, by simp⟩
  | cons i ids ih =>
    obtain ⟨t₁, hi, hrest⟩ := writeEach_cons_ok h
    obtain ⟨rfl, r, hr, hfree⟩ := bindOne_ok hi
    obtain ⟨rfl, hall⟩ := ih hrest
    refine ⟨mount_cons t _ i ids, fun j hj => ?_⟩
    -- What is still free after the first was mounted was free before.
    rcases List.mem_cons.1 hj with rfl | hj
    · exact ⟨r, hr, hfree⟩
    · obtain ⟨s, hs, hnone⟩ := hall j hj
      rw [get?_mount, Option.map_eq_some_iff] at hs
      obtain ⟨s₀, hs₀, rfl⟩ := hs
      split at hnone
      · cases hnone
      · exact ⟨s₀, hs₀, hnone⟩

theorem unbind_ok {ids : List SubClusterId}
    (h : answer (.unbindSubClusters ids) t = (.ok (), t')) : t' = t.mount none ids := by
  rw [answer] at h
  induction ids generalizing t with
  | nil =>
    cases h
    exact (mount_nil _ _).symm
  | cons i ids ih =>
    obtain ⟨t₁, hi, hrest⟩ := writeEach_cons_ok h
    obtain rfl := unbindOne_ok hi
    rw [ih hrest, mount_cons]

/-! What is there can be released, and what is free can be mounted. -/

theorem unbind_each {ids : List SubClusterId}
    (h : ∀ i ∈ ids, ∃ s, t.subClusters.get? i = some s) :
    answer (.unbindSubClusters ids) t = (.ok (), t.mount none ids) := by
  rw [answer]
  induction ids generalizing t with
  | nil => rw [writeEach, mount_nil]
  | cons i ids ih =>
    obtain ⟨s, hs⟩ := h i List.mem_cons_self
    have hfirst : t.unbindOne i = .ok (t.mount none [i]) := by
      rw [unbindOne, hs, ← mount_single hs]
    have hrest : ∀ j ∈ ids, ∃ s, (t.mount none [i]).subClusters.get? j = some s := by
      intro j hj
      obtain ⟨s, hs⟩ := h j (List.mem_cons_of_mem i hj)
      rw [get?_mount, hs]
      exact ⟨_, rfl⟩
    rw [writeEach, hfirst]
    dsimp only
    rw [ih hrest, mount_cons]

theorem bind_each {k : ClusterId} {ids : List SubClusterId} (hnodup : ids.Nodup)
    (h : ∀ i ∈ ids, ∃ s, t.subClusters.get? i = some s ∧ s.clusterId = none) :
    answer (.bindSubClusters k ids) t = (.ok (), t.mount (some k) ids) := by
  rw [answer]
  induction ids generalizing t with
  | nil => rw [writeEach, mount_nil]
  | cons i ids ih =>
    rw [List.nodup_cons] at hnodup
    obtain ⟨s, hs, hfree⟩ := h i List.mem_cons_self
    have hfirst : t.bindOne k i = .ok (t.mount (some k) [i]) := by
      rw [bindOne, hs]
      dsimp only
      rw [hfree]
      dsimp only
      rw [← mount_single hs]
    -- What comes later is another sub-cluster, so it is still free.
    have hrest : ∀ j ∈ ids, ∃ s, (t.mount (some k) [i]).subClusters.get? j = some s ∧
        s.clusterId = none := by
      intro j hj
      have hne : j ∉ [i] := by
        rw [List.mem_singleton]
        rintro rfl
        exact hnodup.1 hj
      rw [get?_mount_of_not_mem hne]
      exact h j (List.mem_cons_of_mem i hj)
    rw [writeEach, hfirst]
    dsimp only
    rw [ih hnodup.2 hrest, mount_cons]

/-! Mounting and releasing as inverse to each other. -/

def IsFree (t : Tables) (i : SubClusterId) : Prop :=
  ∃ s, t.subClusters.get? i = some s ∧ s.clusterId = none

def MountedOn (t : Tables) (c : ClusterId) (i : SubClusterId) : Prop :=
  ∃ s, t.subClusters.get? i = some s ∧ s.clusterId = some c

theorem not_isFree_mount {c : ClusterId} {ids : List SubClusterId} {i : SubClusterId}
    (hi : i ∈ ids) : ¬ (t.mount (some c) ids).IsFree i := by
  rintro ⟨s, hs, hfree⟩
  obtain ⟨_, -, -, hmounted⟩ := exists_of_get?_mount hs
  rw [if_pos hi, hfree] at hmounted
  cases hmounted

/-- A sub-cluster that is listed twice is no longer free when its second turn comes. -/
theorem nodup_of_bind_ok {c : ClusterId} {ids : List SubClusterId}
    (h : answer (.bindSubClusters c ids) t = (.ok (), t')) : ids.Nodup := by
  rw [answer] at h
  induction ids generalizing t with
  | nil => exact List.nodup_nil
  | cons i ids ih =>
    obtain ⟨t₁, hi, hrest⟩ := writeEach_cons_ok h
    obtain ⟨rfl, -⟩ := bindOne_ok hi
    refine List.nodup_cons.2 ⟨fun hmem => ?_, ih hrest⟩
    exact not_isFree_mount List.mem_cons_self ((bind_ok hrest).2 i hmem)

theorem bind_ok_iff {c : ClusterId} {ids : List SubClusterId} :
    answer (.bindSubClusters c ids) t = (.ok (), t') ↔
      ids.Nodup ∧ (∀ i ∈ ids, t.IsFree i) ∧ t' = t.mount (some c) ids := by
  constructor
  · intro h
    obtain ⟨hmount, hfree⟩ := bind_ok h
    exact ⟨nodup_of_bind_ok h, hfree, hmount⟩
  · rintro ⟨hnodup, hfree, rfl⟩
    exact bind_each hnodup hfree

theorem mount_none_mount {ids : List SubClusterId} (hfree : ∀ i ∈ ids, t.IsFree i) :
    (t.mount cluster ids).mount none ids = t := by
  have hback : ((t.mount cluster ids).mount none ids).subClusters = t.subClusters := by
    refine SortedMap.ext fun i => ?_
    by_cases hi : i ∈ ids
    · obtain ⟨s, hs, hnone⟩ := hfree i hi
      rw [get?_mount_of_mem (get?_mount_of_mem hs hi) hi, hs, ← hnone]
    · rw [get?_mount_of_not_mem hi, get?_mount_of_not_mem hi]
  change { t with subClusters := ((t.mount cluster ids).mount none ids).subClusters } = t
  rw [hback]

theorem unbind_mount {ids : List SubClusterId} (hfree : ∀ i ∈ ids, t.IsFree i) :
    answer (.unbindSubClusters ids) (t.mount cluster ids) = (.ok (), t) := by
  have hthere : ∀ i ∈ ids, ∃ s, (t.mount cluster ids).subClusters.get? i = some s := by
    intro i hi
    obtain ⟨s, hs, -⟩ := hfree i hi
    exact ⟨_, get?_mount_of_mem hs hi⟩
  rw [unbind_each hthere, mount_none_mount hfree]

theorem mem_iff_newly_mounted {c : ClusterId} {ids : List SubClusterId}
    (hfree : ∀ i ∈ ids, t.IsFree i) (i : SubClusterId) :
    i ∈ ids ↔ (t.mount (some c) ids).MountedOn c i ∧ ¬ t.MountedOn c i := by
  constructor
  · intro hi
    obtain ⟨s, hs, hnone⟩ := hfree i hi
    refine ⟨⟨_, get?_mount_of_mem hs hi, rfl⟩, ?_⟩
    rintro ⟨s', hs', hmounted⟩
    rw [hs] at hs'
    cases hs'
    rw [hnone] at hmounted
    cases hmounted
  · rintro ⟨hafter, hbefore⟩
    by_contra hi
    rw [MountedOn, get?_mount_of_not_mem hi] at hafter
    exact hbefore hafter

/-- In any tables a list of sub-clusters can be mounted if and only if no one is on it twice and each is
there and free. Then just these come to be mounted on the cluster, nothing else changes, and releasing
the same list leads back to the tables there were. -/
theorem bind_exact (t : Tables) (c : ClusterId) (ids : List SubClusterId) :
    ((answer (.bindSubClusters c ids) t).1 = .ok () ↔ ids.Nodup ∧ ∀ i ∈ ids, t.IsFree i) ∧
      ∀ t', answer (.bindSubClusters c ids) t = (.ok (), t') →
        (∀ i, i ∈ ids ↔ t'.MountedOn c i ∧ ¬ t.MountedOn c i) ∧
        (∀ i, t'.subClusters.get? i = (t.subClusters.get? i).map fun s =>
          if i ∈ ids then { s with clusterId := some c } else s) ∧
        { t' with subClusters := t.subClusters } = t ∧
        answer (.unbindSubClusters ids) t' = (.ok (), t) := by
  constructor
  · constructor
    · intro h
      obtain ⟨hnodup, hfree, -⟩ := bind_ok_iff.1 (Prod.ext h rfl)
      exact ⟨hnodup, hfree⟩
    · rintro ⟨hnodup, hfree⟩
      rw [bind_each hnodup hfree]
  · intro t' h
    obtain ⟨-, hfree, rfl⟩ := bind_ok_iff.1 h
    exact ⟨mem_iff_newly_mounted hfree, get?_mount t (some c) ids, rfl, unbind_mount hfree⟩

def fourShards : Tables :=
  { start with
    nextId := 6
    subClusters := SortedMap.ofList
      [(⟨2⟩, ⟨⟨2⟩, "east", ⟨1⟩, "", ⟨7⟩, some ⟨9⟩⟩), (⟨3⟩, ⟨⟨3⟩, "west", ⟨1⟩, "", ⟨7⟩, none⟩),
        (⟨4⟩, ⟨⟨4⟩, "north", ⟨1⟩, "", ⟨7⟩, some ⟨8⟩⟩), (⟨5⟩, ⟨⟨5⟩, "south", ⟨1⟩, "", ⟨7⟩, none⟩)] }

theorem fourShards_bound :
    (answer (.bindSubClusters ⟨9⟩ [⟨5⟩, ⟨3⟩, ⟨5⟩]) fourShards).1 ≠ .ok () ∧
      ∃ t', answer (.bindSubClusters ⟨9⟩ [⟨5⟩, ⟨3⟩]) fourShards = (.ok (), t') ∧
        t'.MountedOn ⟨9⟩ ⟨3⟩ ∧ t'.subClusters.get? ⟨2⟩ = fourShards.subClusters.get? ⟨2⟩ ∧
        answer (.unbindSubClusters [⟨5⟩, ⟨3⟩]) t' = (.ok (), fourShards) := by
  have hfree : ∀ i ∈ [⟨5⟩, ⟨3⟩], fourShards.IsFree i := by
    intro i hi
    rw [List.mem_cons, List.mem_singleton] at hi
    rcases hi with rfl | rfl
    · exact ⟨⟨⟨5⟩, "south", ⟨1⟩, "", ⟨7⟩, none⟩, by decide +kernel, rfl⟩
    · exact ⟨⟨⟨3⟩, "west", ⟨1⟩, "", ⟨7⟩, none⟩, by decide +kernel, rfl⟩
  have hok := (bind_exact fourShards ⟨9⟩ [⟨5⟩, ⟨3⟩]).1.2 ⟨by decide, hfree⟩
  have hbound : answer (.bindSubClusters ⟨9⟩ [⟨5⟩, ⟨3⟩]) fourShards =
      (.ok (), (answer (.bindSubClusters ⟨9⟩ [⟨5⟩, ⟨3⟩]) fourShards).2) := Prod.ext hok rfl
  obtain ⟨hnew, hrecords, -, hback⟩ := (bind_exact fourShards ⟨9⟩ [⟨5⟩, ⟨3⟩]).2 _ hbound
  refine ⟨fun htwice => ?_, _, hbound, ((hnew ⟨3⟩).1 (by decide)).1, ?_, hback⟩
  · exact absurd ((bind_exact fourShards ⟨9⟩ [⟨5⟩, ⟨3⟩, ⟨5⟩]).1.1 htwice).1 (by decide)
  · rw [hrecords]
    decide +kernel

end FleetControl.Store.Tables
