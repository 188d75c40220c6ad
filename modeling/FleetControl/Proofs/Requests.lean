import FleetControl.Proofs.Runs

/-!
Units of work on the tables, whatever they ask for. A request changes the tables record by record, so
what outlasts each record that is written outlasts the request, also one that fails halfway; and what
outlasts every request holds of all tables that units of work lead to.
-/

namespace FleetControl.Store.Tables

open Work

variable {t : Tables} {P : Tables → Prop}

theorem writeEach_keeps {ι : Type} {write : Tables → ι → Except Fault Tables}
    (hwrite : ∀ t i t', P t → write t i = .ok t' → P t') (h : P t) (is : List ι) :
    P (writeEach write is t).2 := by
  induction is generalizing t with
  | nil => exact h
  | cons i is ih =>
    rw [writeEach]
    split
    · exact ih (hwrite t i _ h ‹_›)
    · exact h

theorem change_keeps {kind : Kind} {α : Type} {resource : String} {table : SortedMap (Id kind) α}
    {id : Id kind} {write : α → Tables} (h : P t)
    (hwrite : ∀ a, table.get? id = some a → P (write a)) :
    P (change resource table id t write).2 := by
  rw [change]
  split
  · exact hwrite _ ‹_›
  · exact h

theorem Numbered.answer (h : t.Numbered) (r : Request) : (answer r t).2.Numbered := by
  have hnew : t.nextId < t.nextId + 1 := by omega
  cases r with
  | createProduct d => exact { h.advance with products := h.advance.products.insert rfl hnew }
  | updateProduct p =>
    exact change_keeps h fun _ hp => { h with products := h.products.insert rfl (h.products.below hp) }
  | deleteProduct id => exact change_keeps h fun _ _ => { h with products := h.products.erase id }
  | createPool d => exact { h.advance with pools := h.advance.pools.insert rfl hnew }
  | updatePoolInstances id instances =>
    refine change_keeps h fun p hp => ?_
    have hid : p.id = id := h.pools.own hp
    exact { h with pools := h.pools.insert hid (h.pools.below hp) }
  | deletePool id => exact change_keeps h fun _ _ => { h with pools := h.pools.erase id }
  | createBfeCluster d =>
    exact { h.advance with bfeClusters := h.advance.bfeClusters.insert rfl hnew }
  | deleteBfeCluster id =>
    exact change_keeps h fun _ _ => { h with bfeClusters := h.bfeClusters.erase id }
  | createSubCluster d =>
    exact { h.advance with subClusters := h.advance.subClusters.insert rfl hnew }
  | updateSubCluster id u =>
    refine change_keeps h fun s hs => ?_
    have hid : (u.apply s).id = id := show s.id = id from h.subClusters.own hs
    exact { h with subClusters := h.subClusters.insert hid (h.subClusters.below hs) }
  | deleteSubCluster id =>
    exact change_keeps h fun _ _ => { h with subClusters := h.subClusters.erase id }
  | bindSubClusters cluster ids =>
    refine writeEach_keeps (fun t i t' ht hbind => ?_) h ids
    obtain ⟨rfl, -⟩ := bindOne_ok hbind
    exact ht.mount _ _
  | unbindSubClusters ids =>
    refine writeEach_keeps (fun t i t' ht hunbind => ?_) h ids
    obtain rfl := unbindOne_ok hunbind
    exact ht.mount _ _
  | createCluster d => exact { h.advance with clusters := h.advance.clusters.insert rfl hnew }
  | updateCluster c =>
    exact change_keeps h fun _ hc => { h with clusters := h.clusters.insert rfl (h.clusters.below hc) }
  | deleteCluster id => exact change_keeps h fun _ _ => { h with clusters := h.clusters.erase id }
  | createDomain d => exact { h.advance with domains := h.advance.domains.insert rfl hnew }
  | deleteDomain id => exact change_keeps h fun _ _ => { h with domains := h.domains.erase id }
  | createCertificate d =>
    exact { h.advance with certificates := h.advance.certificates.insert rfl hnew }
  | setDefaultCertificate id =>
    refine change_keeps h fun _ _ => { h with certificates := ?_ }
    dsimp only
    apply h.certificates.map
    exact fun _ _ => rfl
  | deleteCertificate id =>
    exact change_keeps h fun _ _ => { h with certificates := h.certificates.erase id }
  | _ => exact { h with }

/-- Tables that units of work lead to, one after the other, each complete or broken off. -/
inductive Attained : Tables → Prop where
  | start : Attained start
  | work {t : Tables} (h : Attained t) {α : Type} (w : Work α) : Attained (w.run Tables.answer t).2

theorem Attained.numbered (h : Attained t) : t.Numbered := by
  induction h with
  | start => exact numbered_start
  | work _ w ih => exact (only_of_forall (fun _ => trivial) w).preserves (fun r _ _ hs => hs.answer r) ih

end FleetControl.Store.Tables
