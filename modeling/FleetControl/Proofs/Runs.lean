import FleetControl.Proofs.Effect.Clusters
import FleetControl.Proofs.Effect.Entities
import FleetControl.Proofs.Effect.Routes
import FleetControl.Proofs.Publications

/-!
Runs of the control plane. An event is a call of a manager, under any settings and at any moment, or
the export of a file of any kind; a run is any list of events on the tables a new store has. What
holds at the start and outlasts every effect of a call holds after every run.
-/

namespace FleetControl.Store

open Control

inductive Event where
  | call (settings : ControlSettings) (now : Instant) (c : Call)
  | publish (now : Instant) (p : Publication)

namespace Tables

variable {t t' : Tables} {ignoreReadiness : Bool}

/-- The tables after one event, whether it succeeds or not. -/
def after (t : Tables) : Event → Tables
  | .call settings now c => (t.perform (c.operation settings now)).2
  | .publish now p => (t.perform (Export.exportFile now p.exporter)).2

def run (t : Tables) (events : List Event) : Tables := events.foldl after t

def Reachable (t : Tables) : Prop := ∃ events, t = start.run events

theorem run_append (t : Tables) (events more : List Event) :
    t.run (events ++ more) = (t.run events).run more := List.foldl_append

theorem reachable_start : start.Reachable := ⟨[], rfl⟩

theorem Reachable.after (h : t.Reachable) (e : Event) : (t.after e).Reachable := by
  obtain ⟨events, rfl⟩ := h
  exact ⟨events ++ [e], by rw [run_append]; rfl⟩

/-! Every call has one of the effects. -/

theorem exportKnown_ledger (defaultProduct : Option String) (now : Instant) (last : Option String)
    (topic : Export.Topic) (t : Tables) :
    (t.perform (Export.exportKnown defaultProduct now last topic)).2 = t ∨
      ∃ row, (t.perform (Export.exportKnown defaultProduct now last topic)).2 =
        { t with ledger := t.ledger ++ [row] } := by
  rw [Publication.perform_exportKnown]
  exact Export.exportFile_ledger (Publication.known defaultProduct topic).fetches now t

theorem exportTopic_effect (defaultProduct : Option String) (now : Instant) (topic : String)
    (last : Option String) (t : Tables) : Effect ignoreReadiness t (.exportTopic topic last)
      (t.perform (Export.exportTopic defaultProduct now topic last)).2 := by
  rw [Export.exportTopic]
  split
  · rename_i known _
    rcases exportKnown_ledger defaultProduct now last known t with h | ⟨row, h⟩
    · rw [h]
      exact .idle _
    · rw [h]
      exact .exported row
  · exact .idle _

theorem call_effect (h : t.Numbered) (settings : ControlSettings) (now : Instant) (c : Call) :
    Effect settings.ignoreReadinessCheck t c (t.after (.call settings now c)) := by
  cases c with
  | createProduct draft => exact createProduct_effect _ h draft
  | updateProduct name change => exact updateProduct_effect _ h name change
  | deleteProduct name => exact deleteProduct_effect _ h name
  | createBfeCluster proposal => exact createBfeCluster_effect h _ proposal
  | deleteBfeCluster name => exact deleteBfeCluster_effect h _ name
  | createPool product proposal => exact createPool_effect _ h product proposal
  | updatePoolInstances product pool instances =>
    exact updatePoolInstances_effect _ h product pool instances
  | deletePool product pool => exact deletePool_effect _ h product pool
  | createSubCluster product proposal => exact createSubCluster_effect _ h product proposal
  | updateSubCluster product name change => exact updateSubCluster_effect _ h product name change
  | deleteSubCluster product name => exact deleteSubCluster_effect _ h product name
  | createCluster product proposal => exact createCluster_effect h _ product proposal
  | updateCluster product cluster change => exact updateCluster_effect h _ product cluster change
  | rebindSubClusters product cluster names => exact rebind_effect h _ product cluster names
  | deleteCluster product cluster => exact deleteCluster_effect h _ product cluster
  | createDomain product proposal => exact createDomain_effect _ h product proposal
  | deleteDomain product name => exact deleteDomain_effect _ h product name
  | replaceRules product rules => exact replaceRules_effect h _ product rules
  | createCertificate draft => exact createCertificate_effect _ h draft
  | setDefaultCertificate name => exact setDefaultCertificate_effect _ h name
  | deleteCertificate name => exact deleteCertificate_effect _ h name
  | exportTopic topic last => exact exportTopic_effect _ now topic last t
  | _ => exact .idle _

theorem publish_effect (now : Instant) (p : Publication) (t : Tables) :
    Effect false t (.exportTopic p.exporter.topic none) (t.after (.publish now p)) := by
  rcases Export.exportFile_ledger p.fetches now t with h | ⟨row, h⟩
  · rw [after, h]
    exact .idle _
  · rw [after, h]
    exact .exported row

/-! Invariants. -/

theorem Numbered.advance (h : t.Numbered) : Numbered { t with nextId := t.nextId + 1 } := by
  have hle : t.nextId ≤ t.nextId + 1 := by omega
  exact ⟨h.products.mono hle, h.pools.mono hle, h.bfeClusters.mono hle, h.subClusters.mono hle,
    h.clusters.mono hle, h.domains.mono hle, h.certificates.mono hle⟩

theorem Numbered.mount (h : t.Numbered) (cluster : Option ClusterId) (ids : List SubClusterId) :
    Numbered (t.mount cluster ids) := by
  have hmounted : Indexed t.nextId SubCluster.Record.id (t.mount cluster ids).subClusters := by
    unfold Tables.mount
    dsimp only
    apply h.subClusters.map
    intro i s
    split <;> rfl
  exact { h with subClusters := hmounted }

theorem Numbered.effect {c : Call} (h : t.Numbered) (he : Effect ignoreReadiness t c t') :
    t'.Numbered := by
  have hnew : t.nextId < t.nextId + 1 := by omega
  cases he with
  | idle => exact h
  | productCreated => exact { h.advance with products := h.advance.products.insert rfl hnew }
  | productUpdated _ stored =>
    exact { h with products := h.products.insert rfl (h.products.below stored) }
  | productDeleted => exact { h with products := h.products.erase _ }
  | poolCreated => exact { h.advance with pools := h.advance.pools.insert rfl hnew }
  | instancesUpdated _ _ _ stored =>
    exact { h with pools := h.pools.insert rfl (h.pools.below stored) }
  | poolDeleted => exact { h with pools := h.pools.erase _ }
  | bfeClusterCreated =>
    exact { h.advance with bfeClusters := h.advance.bfeClusters.insert rfl hnew }
  | bfeClusterDeleted => exact { h with bfeClusters := h.bfeClusters.erase _ }
  | subClusterCreated =>
    exact { h.advance with subClusters := h.advance.subClusters.insert rfl hnew }
  | subClusterUpdated _ _ stored =>
    exact { h with subClusters := h.subClusters.insert rfl (h.subClusters.below stored) }
  | subClusterDeleted => exact { h with subClusters := h.subClusters.erase _ }
  | clusterCreated =>
    exact { h.advance with
      clusters := h.advance.clusters.insert rfl hnew
      subClusters := (h.advance.mount _ _).subClusters }
  | clusterUpdated _ _ _ stored =>
    exact { h with clusters := h.clusters.insert rfl (h.clusters.below stored) }
  | rebound => exact { h with subClusters := ((h.mount _ _).mount _ _).subClusters }
  | clusterDeleted =>
    exact { h with subClusters := (h.mount _ _).subClusters, clusters := h.clusters.erase _ }
  | domainCreated => exact { h.advance with domains := h.advance.domains.insert rfl hnew }
  | domainDeleted => exact { h with domains := h.domains.erase _ }
  | rulesReplaced => exact { h with }
  | certificateCreated _ _ marked =>
    refine { h.advance with certificates := ?_ }
    subst marked
    dsimp only
    split
    · apply Indexed.map
      · exact h.advance.certificates.insert rfl hnew
      · exact fun _ _ => rfl
    · exact h.advance.certificates.insert rfl hnew
  | defaultCertificateSet =>
    refine { h with certificates := ?_ }
    dsimp only
    apply h.certificates.map
    exact fun _ _ => rfl
  | certificateDeleted => exact { h with certificates := h.certificates.erase _ }
  | exported => exact { h with }

theorem Numbered.after_of_effect {P : Tables → Prop} (h : t.Numbered) (e : Event)
    (keeps : ∀ {ignoreReadiness c t'}, Effect ignoreReadiness t c t' → P t') : P (t.after e) := by
  cases e with
  | call settings now c => exact keeps (call_effect h settings now c)
  | publish now p => exact keeps (publish_effect now p t)

theorem Numbered.run (h : t.Numbered) (events : List Event) : (t.run events).Numbered := by
  induction events generalizing t with
  | nil => exact h
  | cons e events ih => exact ih (h.after_of_effect e h.effect)

theorem Reachable.numbered (h : t.Reachable) : t.Numbered := by
  obtain ⟨events, rfl⟩ := h
  exact numbered_start.run events

/-- What holds at the start and outlasts every effect holds of all reachable tables. -/
theorem Reachable.invariant {P : Tables → Prop} (h : t.Reachable) (first : P start)
    (keeps : ∀ {ignoreReadiness t c t'}, t.Reachable → P t → Effect ignoreReadiness t c t' → P t') :
    P t := by
  -- The invariant is carried forward from the start, where the tables are known to be reachable.
  have along : ∀ (events : List Event) (s : Tables), s.Reachable → P s → P (s.run events) := by
    intro events
    induction events with
    | nil => exact fun _ _ hs => hs
    | cons e events ih =>
      intro s hr hs
      have hkept : P (s.after e) := hr.numbered.after_of_effect e (keeps hr hs)
      exact ih (s.after e) (hr.after e) hkept
  obtain ⟨events, rfl⟩ := h
  exact along events start reachable_start first

end Tables
end FleetControl.Store
