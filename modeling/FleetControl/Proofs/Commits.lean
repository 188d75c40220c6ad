import FleetControl.Proofs.Agreement
import FleetControl.Proofs.Managers

/-!
Units of work on tables in memory, action by action. A unit of work copies the committed tables, reads
and writes the copy, and puts it in their place when it is committed; one that is dropped leaves nothing
behind. Whatever a call has written by the time it fails, it has not committed, and a query writes not
even to its copy. None of this depends on what the tables hold.
-/

namespace FleetControl

def Call.isQuery : Call → Bool
  | fetchProduct _ | fetchProducts | fetchBfeClusters | poolDeletable .. | fetchPool .. | fetchPools _
  | fetchSubCluster .. | fetchSubClusters _ | fetchCluster .. | fetchClusters _ | fetchDomains _
  | fetchRules _ | clusterReferenced .. | domainReferenced _ | fetchCertificates | latestVersion _
  | versionHistory _ => true
  | _ => false

namespace Store

def Request.reads : Request → Bool
  | latestVersion _ | versionHistory _ => true
  | r => r.fetches

theorem allowsReads_reads : AllowsReads (·.reads = true) := by
  intro r hr
  cases r <;> first | rfl | cases hr

inductive Action where
  | begin
  | ask (r : Request)
  | commit
  | drop

structure Memory where
  committed : Tables
  copy? : Option Tables

namespace Memory

def act (m : Memory) : Action → Memory
  | .begin => ⟨m.committed, some m.committed⟩
  | .ask r => ⟨m.committed, m.copy?.map fun t => (Tables.answer r t).2⟩
  | .commit => ⟨m.copy?.getD m.committed, none⟩
  | .drop => ⟨m.committed, none⟩

def acts (m : Memory) (actions : List Action) : Memory := actions.foldl act m

theorem acts_append (m : Memory) (actions more : List Action) :
    m.acts (actions ++ more) = (m.acts actions).acts more := List.foldl_append

theorem act_committed {a : Action} (h : a ≠ .commit) (m : Memory) :
    (m.act a).committed = m.committed := by
  cases a with
  | commit => exact absurd rfl h
  | _ => rfl

theorem acts_committed {actions : List Action} (h : Action.commit ∉ actions) (m : Memory) :
    (m.acts actions).committed = m.committed := by
  induction actions generalizing m with
  | nil => rfl
  | cons a actions ih =>
    have ha : a ≠ .commit := fun heq => h (heq ▸ List.mem_cons_self)
    exact (ih (fun hmem => h (List.mem_cons_of_mem a hmem)) (m.act a)).trans (act_committed ha m)

def Untouched (t : Tables) (m : Memory) : Prop :=
  m.committed = t ∧ (m.copy? = none ∨ m.copy? = some t)

end Memory

def Action.IsIdle : Action → Prop
  | ask r => r.reads = true
  | commit => False
  | begin | drop => True

namespace Tables

theorem answer_reads {r : Request} (hr : r.reads = true) (t : Tables) : (answer r t).2 = t := by
  cases r <;> first | rfl | cases hr

end Tables

namespace Memory

variable {t : Tables} {m : Memory}

theorem Untouched.act (h : m.Untouched t) {a : Action} (ha : a.IsIdle) : (m.act a).Untouched t := by
  obtain ⟨hcommitted, hcopy⟩ := h
  cases a with
  | begin => exact ⟨hcommitted, Or.inr (congrArg some hcommitted)⟩
  | ask r =>
    refine ⟨hcommitted, ?_⟩
    rcases hcopy with hnone | hsome
    · exact Or.inl (by rw [Memory.act, hnone]; rfl)
    · exact Or.inr (by rw [Memory.act, hsome, Option.map_some, Tables.answer_reads ha])
  | commit => exact ha.elim
  | drop => exact ⟨hcommitted, Or.inl rfl⟩

theorem Untouched.acts (h : m.Untouched t) {actions : List Action}
    (hactions : ∀ a ∈ actions, a.IsIdle) : (m.acts actions).Untouched t := by
  induction actions generalizing m with
  | nil => exact h
  | cons a actions ih =>
    refine ih (h.act (hactions a List.mem_cons_self)) fun b hb => ?_
    exact hactions b (List.mem_cons_of_mem a hb)

end Memory

namespace Work

variable {α σ : Type} {P : Request → Prop}

def asked (h : Handler σ) : Work α → σ → List Request
  | done _, _ | fail _, _ => []
  | step r next, s =>
    r :: match h r s with
      | (.ok x, s') => (next x).asked h s'
      | (.error _, _) => []

theorem Only.asked {w : Work α} (hw : w.Only P) (h : Handler σ) (s : σ) :
    ∀ r ∈ w.asked h s, P r := by
  induction w generalizing s with
  | done a => exact fun r hr => absurd hr List.not_mem_nil
  | fail f => exact fun r hr => absurd hr List.not_mem_nil
  | step r next ih =>
    intro r' hr'
    rw [Work.asked] at hr'
    rcases List.mem_cons.1 hr' with rfl | hr'
    · exact hw.1
    · split at hr'
      · exact ih _ (hw.2 _) _ r' hr'
      · cases hr'

theorem acts_asked (w : Work α) (committed t : Tables) :
    (Memory.mk committed (some t)).acts ((w.asked Tables.answer t).map .ask) =
      ⟨committed, some (w.run Tables.answer t).2⟩ := by
  induction w generalizing t with
  | done a => rfl
  | fail f => rfl
  | step r next ih =>
    rw [asked, List.map_cons, Memory.acts, List.foldl_cons, run]
    change Memory.acts ⟨committed, some (Tables.answer r t).2⟩ _ = _
    rcases Tables.answer r t with ⟨x, t'⟩
    cases x with
    | ok x => exact ih x t'
    | error f => rfl

end Work

namespace Operation

variable {α : Type}

def actions (t : Tables) : Operation α → List Action
  | refuse _ => []
  | query w => .begin :: (w.asked Tables.answer t).map .ask ++ [.drop]
  | update w =>
    .begin :: (w.asked Tables.answer t).map .ask ++
      [match (w.run Tables.answer t).1 with
        | .ok _ => .commit
        | .error _ => .drop]

/-- The actions bring the store to where the operation as a whole does. -/
theorem acts_actions (op : Operation α) (t : Tables) :
    (Memory.mk t none).acts (op.actions t) = ⟨(t.perform op).2, none⟩ := by
  cases op with
  | refuse f => rfl
  | query w =>
    rw [actions, List.cons_append, Memory.acts, List.foldl_cons]
    change Memory.acts ⟨t, some t⟩ _ = _
    rw [Memory.acts_append, Work.acts_asked]
    rfl
  | update w =>
    rw [actions, List.cons_append, Memory.acts, List.foldl_cons]
    change Memory.acts ⟨t, some t⟩ _ = _
    rw [Memory.acts_append, Work.acts_asked, Tables.perform]
    rcases w.run Tables.answer t with ⟨x, t'⟩
    cases x <;> rfl

theorem commit_not_mem_asked (w : Work α) (t : Tables) :
    Action.commit ∉ Action.begin :: (w.asked Tables.answer t).map .ask := by
  simp

theorem commit_cases (op : Operation α) (t : Tables) :
    Action.commit ∉ op.actions t ∨
      ∃ before a, op.actions t = before ++ [.commit] ∧ Action.commit ∉ before ∧
        (t.perform op).1 = .ok a := by
  cases op with
  | refuse f => exact Or.inl List.not_mem_nil
  | query w => exact Or.inl (by simp [actions])
  | update w =>
    rw [actions, Tables.perform]
    rcases w.run Tables.answer t with ⟨x, t'⟩
    cases x with
    | ok a => exact Or.inr ⟨_, a, rfl, commit_not_mem_asked w t, rfl⟩
    | error f => exact Or.inl (by simp)

theorem committed_of_prefix (op : Operation α) {t : Tables} {seen : List Action}
    (hseen : seen <+: op.actions t) (hpart : seen ≠ op.actions t) :
    ((Memory.mk t none).acts seen).committed = t := by
  apply Memory.acts_committed
  rcases op.commit_cases t with hnone | ⟨before, a, hactions, hbefore, -⟩
  · exact fun hmem => hnone (hseen.subset hmem)
  · rw [hactions] at hseen hpart
    rcases List.prefix_concat_iff.1 hseen with heq | hbelow
    · exact absurd heq hpart
    · exact fun hmem => hbefore (hbelow.subset hmem)

theorem commit_not_mem_of_error {op : Operation α} {t : Tables} {f : Fault}
    (h : (t.perform op).1 = .error f) : Action.commit ∉ op.actions t := by
  rcases op.commit_cases t with hnone | ⟨before, a, -, -, hok⟩
  · exact hnone
  · rw [hok] at h
    cases h

theorem actions_idle {w : Work α} (hw : w.Only (·.reads = true)) (t : Tables) :
    ∀ a ∈ (query w).actions t, a.IsIdle := by
  intro a ha
  simp only [actions, List.cons_append, List.mem_cons, List.mem_append, List.mem_map,
    List.not_mem_nil, or_false] at ha
  rcases ha with rfl | ⟨r, hr, rfl⟩ | rfl
  · trivial
  · exact hw.asked Tables.answer t r hr
  · trivial

end Operation
end Store

namespace Call

open Control Store Store.Work

theorem operation_query (settings : ControlSettings) (now : Instant) {c : Call}
    (hc : c.isQuery = true) :
    ∃ w, c.operation settings now = .query w ∧ w.Only (·.reads = true) := by
  have hreads := allowsReads_reads
  cases c with
  | fetchProduct name => exact ⟨_, rfl, requireProduct_asks hreads name⟩
  | poolDeletable product pool => exact ⟨_, rfl, Pools.deletable_asks hreads product pool⟩
  | fetchPool product pool =>
    exact ⟨_, rfl, only_bind (requireProduct_asks hreads product) fun p =>
      Pools.requireOwned_asks hreads p pool⟩
  | fetchPools product | fetchDomains product =>
    exact ⟨_, rfl, only_bind (requireProduct_asks hreads product) fun p => only_ask rfl⟩
  | fetchSubCluster product name => exact ⟨_, rfl, SubClusters.fetch_asks hreads product name⟩
  | fetchSubClusters product => exact ⟨_, rfl, SubClusters.fetchAll_asks hreads product⟩
  | fetchCluster product cluster => exact ⟨_, rfl, Clusters.fetch_asks hreads _ product cluster⟩
  | fetchClusters product => exact ⟨_, rfl, Clusters.fetchAll_asks hreads _ product⟩
  | fetchRules product => exact ⟨_, rfl, Routes.fetch_asks hreads product⟩
  | clusterReferenced product cluster =>
    exact ⟨_, rfl, Routes.clusterReferenced_asks hreads product cluster⟩
  | domainReferenced host => exact ⟨_, rfl, (hostInRules_fetches host).imp hreads⟩
  | fetchProducts | fetchBfeClusters | fetchCertificates | latestVersion | versionHistory =>
    exact ⟨_, rfl, only_ask rfl⟩
  | _ => cases hc

end Call

namespace Store

def Event.actions (t : Tables) : Event → List Action
  | .call settings now c => (c.operation settings now).actions t
  | .publish now p => (Export.exportFile now p.exporter).actions t

def Event.isQuery : Event → Bool
  | .call _ _ c => c.isQuery
  | .publish .. => false

namespace Tables

/-- What a store that holds `t` goes through at an event. -/
structure AllOrNothing (t : Tables) (e : Event) : Prop where
  ends : (Memory.mk t none).acts (e.actions t) = ⟨t.after e, none⟩
  nothing : ∀ seen, seen <+: e.actions t → seen ≠ e.actions t →
    ((Memory.mk t none).acts seen).committed = t
  failed : e.Fails t → Action.commit ∉ e.actions t ∧ t.after e = t
  /-- A query writes nothing, not even to be dropped. -/
  queried : e.isQuery = true →
    (∀ seen, seen <+: e.actions t → ((Memory.mk t none).acts seen).Untouched t) ∧ t.after e = t

theorem allOrNothing (t : Tables) (e : Event) : AllOrNothing t e := by
  have hfails : ∀ {α : Type} {op : Operation α}, (∃ f, (t.perform op).1 = .error f) →
      Action.commit ∉ op.actions t ∧ (t.perform op).2 = t := by
    rintro α op ⟨f, hf⟩
    exact ⟨Operation.commit_not_mem_of_error hf, perform_error hf⟩
  cases e with
  | publish now p =>
    let op := Export.exportFile now p.exporter
    exact ⟨op.acts_actions t, fun _ => op.committed_of_prefix, hfails, fun hquery => by cases hquery⟩
  | call settings now c =>
    let op := c.operation settings now
    refine ⟨op.acts_actions t, fun _ => op.committed_of_prefix, hfails, ?_⟩
    intro hquery
    obtain ⟨w, hw, hreads⟩ := Call.operation_query settings now hquery
    rw [Event.actions, after, hw]
    refine ⟨fun seen hseen => ?_, rfl⟩
    have huntouched : (Memory.mk t none).Untouched t := ⟨rfl, Or.inl rfl⟩
    refine huntouched.acts fun a ha => ?_
    exact Operation.actions_idle hreads t a (hseen.subset ha)

/-- Tables that no run leads to: the pool of a mounted sub-cluster is gone. -/
def poolless : Tables := { start.run routedFleet with pools := ∅ }

theorem poolless_unharmed :
    let e : Event := .call {} ⟨0⟩ (.updateCluster "shop" "front" ⟨some "new", none, none, none, none⟩)
    e.Fails poolless ∧
      (∃ seen, seen <+: e.actions poolless ∧
        (((Memory.mk poolless none).acts seen).copy?.bind fun t =>
          (t.clusters.get? ⟨6⟩).map (·.description)) = some "new") ∧
      (poolless.clusters.get? ⟨6⟩).map (·.description) = some "" ∧
      poolless.after e = poolless := by
  intro e
  have hmissing : (poolless.perform (Call.operation {} ⟨0⟩
      (.updateCluster "shop" "front" ⟨some "new", none, none, none, none⟩))).1 =
      .error (.dirtyData "Sub cluster 'east' references missing pool 3") := by decide +kernel
  have hfails : e.Fails poolless := ⟨_, hmissing⟩
  refine ⟨hfails, ⟨(e.actions poolless).take 6, List.take_prefix _ _, by decide +kernel⟩,
    by decide +kernel, ?_⟩
  exact ((allOrNothing poolless e).failed hfails).2

end Tables
end Store
end FleetControl
