import FleetControl.Proofs.Domains
import FleetControl.Proofs.StoredMatrices

/-!
Everything that exports rely on. To the references, names and domains come three facts about single
records: a matrix has a row for each BFE cluster and no other, however many sub-clusters there are; an
instance has a port; and the advanced rules of a product end with a rule that matches everything.
-/

namespace FleetControl.Store.Tables

open Control

variable {t t' : Tables} {ignoreReadiness : Bool} {c : Call}

/-! Rows of matrices. -/

def Headed (t : Tables) : Prop :=
  ∀ k p m, t.loadMatrices.get? k = some (p, m) → ∀ b, m.rows.contains b = true ↔ b ∈ t.fleet

theorem headed_start : Headed start := by
  intro k p m hget
  simp [start] at hget

theorem Headed.put (h : Headed t) {r : ClusterId} {e : ProductId × LoadMatrix}
    {names : List String} (hmatrices : t'.loadMatrices = t.loadMatrices.insert r e)
    (hfleet : t'.fleet = t.fleet) (hfits : e.2.Fits t.fleet names) : Headed t' := by
  intro k p m hget b
  rw [hfleet]
  rw [hmatrices] at hget
  rcases SortedMap.get?_insert_eq_some.1 hget with ⟨-, rfl⟩ | ⟨-, hget⟩
  · exact hfits.rows
  · exact h k p m hget b

theorem Headed.growFleet (h : Headed t) {bfe : String} {k : ClusterId} {p : ProductId}
    {m : LoadMatrix} (hget : t.loadMatrices.get? k = some (p, m)) (b : String) :
    (t.extendedMatrix bfe k).rows.contains b = true ↔ b = bfe ∨ b ∈ t.fleet := by
  rw [extendedMatrix, hget, Option.map_some, Option.getD_some, LoadMatrix.insertRow,
    SortedMap.contains_insert, h k p m hget]

theorem Headed.shrinkFleet (h : Headed t) {bfe : String} (hknown : bfe ∈ t.fleet)
    {r : Cluster.Record} {p : ProductId} {m : LoadMatrix}
    (hget : t.shrunkMatrix bfe r = some (p, m)) (b : String) :
    m.rows.contains b = true ↔ b ∈ t.fleet ∧ b ≠ bfe := by
  rw [shrunkMatrix, Option.map_eq_some_iff] at hget
  obtain ⟨⟨q, m₀⟩, hm₀, heq⟩ := hget
  have hrow : (m₀.row? bfe).isSome = true := (h r.id q m₀ hm₀ bfe).2 hknown
  rw [if_pos hrow] at heq
  cases heq
  rw [LoadMatrix.eraseRow, SortedMap.contains_erase, h r.id q m₀ hm₀, and_comm]

theorem Headed.effect (h : Headed t) (hn : t.Numbered) (hnamed : Named t) (hb : Balanced t)
    (he : Effect ignoreReadiness t c t') : Headed t' := by
  have hn' : t'.Numbered := hn.effect he
  cases he with
  | bfeClusterCreated _ _ _ _ _ extended kept =>
    intro k p m hget b
    rw [mem_fleet_create hn hn' rfl]
    cases hr : t.clusters.get? k with
    | none =>
      rw [kept hr] at hget
      obtain ⟨r, hr', -⟩ := (hb k p).1 ⟨m, hget⟩
      rw [hr] at hr'
      cases hr'
    | some r =>
      rw [extended hr] at hget
      cases hget
      obtain ⟨m₀, hm₀⟩ := (hb k r.productId).2 ⟨r, hr, rfl⟩
      exact h.growFleet hm₀ b
  | @bfeClusterDeleted bfe _ stored shrunk kept =>
    intro k p m hget b
    rw [mem_fleet_delete hn hn' hnamed stored rfl]
    cases hr : t.clusters.get? k with
    | none =>
      rw [kept hr] at hget
      obtain ⟨r, hr', -⟩ := (hb k p).1 ⟨m, hget⟩
      rw [hr] at hr'
      cases hr'
    | some r =>
      rw [shrunk hr] at hget
      exact h.shrinkFleet (hn.mem_fleet.2 ⟨bfe.id, bfe, stored, rfl⟩) hget b
  | clusterCreated _ _ _ _ _ _ _ _ _ fits => exact h.put rfl rfl fits
  | @clusterUpdated p r change ms _ _ _ _ _ kept replaced =>
    cases hscheduler : change.scheduler with
    | none =>
      intro k p m hget
      rw [kept hscheduler] at hget
      exact h k p m hget
    | some m₀ =>
      obtain ⟨hfits, hms⟩ := replaced hscheduler
      exact h.put hms rfl hfits
  | rebound _ _ _ _ _ _ _ _ _ fits => exact h.put rfl rfl fits
  | clusterDeleted => exact fun k p m hget => h k p m (SortedMap.get?_erase_eq_some.1 hget).2
  | _ => exact h

/-! Instances of pools. -/

def Equipped (t : Tables) : Prop :=
  ∀ i q, t.pools.get? i = some q → ∀ x ∈ q.instances, x.defect? = none

theorem equipped_start : Equipped start := by
  intro i q hget
  simp [start] at hget

theorem defect?_of_instancesRefusal? {instances : List Instance}
    (h : Pools.instancesRefusal? instances = none) : ∀ x ∈ instances, x.defect? = none := by
  rw [Pools.instancesRefusal?, Option.map_eq_none_iff] at h
  exact List.findSome?_eq_none_iff.1 h

theorem Equipped.put (h : Equipped t) {i : PoolId} {q : Pool}
    (hsound : Pools.instancesRefusal? q.instances = none)
    (hpools : t'.pools = t.pools.insert i q) : Equipped t' := by
  intro j q' hget
  rw [hpools] at hget
  rcases SortedMap.get?_insert_eq_some.1 hget with ⟨-, rfl⟩ | ⟨-, hget⟩
  · exact defect?_of_instancesRefusal? hsound
  · exact h j q' hget

theorem Equipped.effect (h : Equipped t) (he : Effect ignoreReadiness t c t') : Equipped t' := by
  cases he with
  | poolCreated _ _ _ sound => exact h.put sound rfl
  | instancesUpdated sound => exact h.put sound rfl
  | poolDeleted => exact fun i q hget => h i q (SortedMap.get?_erase_eq_some.1 hget).2
  | _ => exact h

theorem exists_ofInstance {x : Instance} (h : x.defect? = none) (pool : Pool) :
    ∃ conf, Files.InstanceConf.ofInstance pool x = .ok conf := by
  have hports : x.ports.isEmpty = false := by
    rw [Instance.defect?] at h
    split at h
    · cases h
    · split at h
      · cases h
      · split at h
        · cases h
        · split at h
          · cases h
          · exact Bool.eq_false_iff.2 ‹_›
  have hport : x.defaultPort ≠ none := by
    intro hnone
    rw [Instance.defaultPort, Option.or_eq_none_iff, List.head?_eq_none_iff,
      SortedMap.values, List.map_eq_nil_iff] at hnone
    rw [SortedMap.isEmpty, hnone.2] at hports
    cases hports
  obtain ⟨port, hport⟩ := Option.ne_none_iff_exists'.1 hport
  exact ⟨⟨x.hostname, x.ip, port, x.weight⟩, by rw [Files.InstanceConf.ofInstance, hport]⟩

/-! Advanced rules. -/

def Closed (t : Tables) : Prop :=
  ∀ p rules, t.routeRules.get? p = some rules →
    ∃ r, rules.advanced.getLast? = some r ∧ r.isCatchAll = true

theorem closed_start : Closed start := by
  intro p rules hget
  simp [start] at hget

theorem map_expression_of_resolved {p : ProductId} {rules stored : List AdvancedRule}
    (h : List.Forall₂ (ResolvedAdvanced t p) rules stored) :
    stored.map (·.expression) = rules.map (·.expression) := by
  induction h with
  | nil => rfl
  | cons hhead _ ih => rw [List.map_cons, List.map_cons, ih, hhead.1]

theorem getLast?_of_resolved {p : ProductId} {rules stored : List AdvancedRule}
    (h : List.Forall₂ (ResolvedAdvanced t p) rules stored) {r : AdvancedRule}
    (hr : rules.getLast? = some r) :
    ∃ s, stored.getLast? = some s ∧ s.expression = r.expression := by
  have hlast := congrArg List.getLast? (map_expression_of_resolved h)
  rw [List.getLast?_map, List.getLast?_map, hr, Option.map_some, Option.map_eq_some_iff] at hlast
  exact hlast

theorem Closed.effect (h : Closed t) (he : Effect ignoreReadiness t c t') : Closed t' := by
  cases he with
  | productDeleted => exact fun p rules hget => h p rules (SortedMap.get?_erase_eq_some.1 hget).2
  | @rulesReplaced p rules resolved valid _ _ _ advanced =>
    intro q rules' hget
    rw [SortedMap.get?_insert] at hget
    split at hget
    · cases hget
      rw [RouteRules.defect?] at valid
      split at valid
      · cases valid
      · rename_i hlast
        simp only [Bool.not_eq_true', Bool.not_eq_false, Option.any_eq_true] at hlast
        obtain ⟨r, hr, hcatch⟩ := hlast
        obtain ⟨s, hs, hexpression⟩ := getLast?_of_resolved advanced hr
        refine ⟨s, hs, ?_⟩
        rw [AdvancedRule.isCatchAll, hexpression]
        exact hcatch
    · exact h q rules' hget
  | _ => exact h

/-! All together. -/

structure Consistent (t : Tables) : Prop where
  numbered : t.Numbered
  named : Named t
  intact : Intact t
  exclusive : Exclusive t
  headed : Headed t
  equipped : Equipped t
  closed : Closed t

theorem Reachable.headed (h : t.Reachable) : Headed t :=
  h.invariant headed_start fun hr hi he => hi.effect hr.numbered hr.named hr.intact.balanced he

theorem Reachable.consistent (h : t.Reachable) : Consistent t where
  numbered := h.numbered
  named := h.named
  intact := h.intact
  exclusive := h.exclusive
  headed := h.headed
  equipped := h.invariant equipped_start fun _ hi he => hi.effect he
  closed := h.invariant closed_start fun _ hi he => hi.effect he

theorem Consistent.supplied (h : Consistent t) : Supplied t := by
  intro s hs
  obtain ⟨i, hget⟩ := SortedMap.mem_values.1 hs
  obtain ⟨q, hq, -⟩ := h.intact.served i s hget
  exact ⟨q, SortedMap.mem_values.2 ⟨_, hq⟩, h.numbered.pools.own hq⟩

end FleetControl.Store.Tables
