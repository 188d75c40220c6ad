import FleetControl.Proofs.Additions
import FleetControl.Proofs.Generated

/-!
What a BFE cluster that comes or goes leaves alone. Its row is put into every matrix, or taken out of
every matrix, and no other row changes; so the files of the other topics stay what they are, and so do
their versions. Since no matrix had a row for a BFE cluster that was not there, taking out a new BFE
cluster gives the old tables back.
-/

namespace FleetControl.Store.Tables

open Control Export Files Work

variable {t t' : Tables} {b : BfeCluster} {d : BfeCluster.Draft} {x : String} {topic : Topic}
  {defaultProduct : Option String} {events : List Event}

/-! Tables that agree on all BFE clusters but one. -/

def rowOf (t : Tables) (y : String) (k : ClusterId) : Option (ProductId × Option LoadRow) :=
  (t.loadMatrices.get? k).map fun e => (e.1, e.2.row? y)

/-- The tables differ in the BFE cluster `x` at most, and in what matrices have for it. -/
structure AgreeBut (x : String) (t t' : Tables) : Prop where
  others : ∃ n bfes matrices,
    t' = { t with nextId := n, bfeClusters := bfes, loadMatrices := matrices }
  rows : ∀ y, y ≠ x → ∀ k, t'.rowOf y k = t.rowOf y k
  fleet : ∀ y, y ≠ x → (y ∈ t'.fleet ↔ y ∈ t.fleet)

theorem rowOf_eq_some {y : String} {k : ClusterId} {p : ProductId} {row : LoadRow} :
    t.rowOf y k = some (p, some row) ↔
      ∃ m, t.loadMatrices.get? k = some (p, m) ∧ m.row? y = some row := by
  rw [rowOf, Option.map_eq_some_iff]
  constructor
  · rintro ⟨⟨q, m⟩, hm, heq⟩
    obtain ⟨rfl, hrow⟩ := Prod.mk.inj heq
    exact ⟨m, hm, hrow⟩
  · rintro ⟨m, hm, hrow⟩
    exact ⟨(p, m), hm, Prod.ext rfl hrow⟩

theorem rowOf_of_map {y : String} (f : ClusterId → ProductId × LoadMatrix → LoadMatrix)
    (hmatrices : t'.loadMatrices = t.loadMatrices.map fun k e => (e.1, f k e))
    (hrow : ∀ k e, (f k e).row? y = e.2.row? y) (k : ClusterId) : t'.rowOf y k = t.rowOf y k := by
  rw [rowOf, hmatrices, SortedMap.get?_map, Option.map_map, rowOf]
  have hsame : (fun e : ProductId × LoadMatrix => (e.1, e.2.row? y)) ∘ (fun e => (e.1, f k e)) =
      fun e => (e.1, e.2.row? y) := by
    funext e
    exact Prod.ext rfl (hrow k e)
  rw [hsame]

theorem AgreeBut.shows (h : AgreeBut x t t') (hother : topic ≠ .gslb x) {f : topic.File}
    (hf : topic.Shows defaultProduct t f) : topic.Shows defaultProduct t' f := by
  obtain ⟨n, bfes, matrices, heq⟩ := h.others
  cases topic with
  | gslb y =>
    have hy : y ≠ x := fun e => hother (congrArg Topic.gslb e)
    have hclusters : t'.clusters = t.clusters := by rw [heq]
    refine ⟨hf.ts, hf.hostname, fun name row => ?_⟩
    rw [hf.clusters name row, hclusters]
    simp only [← rowOf_eq_some, h.rows y hy]
  | routeRule =>
    subst heq
    exact ⟨hf.version, hf.basicRule, hf.productRule⟩
  | hostTable =>
    subst heq
    exact ⟨hf.version, hf.defaultProduct, hf.hosts, hf.hostTags⟩
  | clusterTable =>
    subst heq
    exact ⟨hf.version, hf.config⟩
  | instanceTable =>
    subst heq
    exact ⟨hf.version, hf.config⟩
  | certificate =>
    subst heq
    exact ⟨hf.version, hf.defaultName, hf.certConf⟩

theorem AgreeBut.missing? (h : AgreeBut x t t') (hother : topic ≠ .gslb x) :
    topic.missing? defaultProduct t' = topic.missing? defaultProduct t := by
  obtain ⟨n, bfes, matrices, rfl⟩ := h.others
  cases topic with
  | gslb y =>
    have hy : y ≠ x := fun e => hother (congrArg Topic.gslb e)
    simp only [Topic.missing?, h.fleet y hy]
  | _ => rfl

theorem AgreeBut.generated (h : AgreeBut x t t') (hc : Consistent t) (hc' : Consistent t')
    (hother : topic ≠ .gslb x) :
    topic.generated defaultProduct t' = topic.generated defaultProduct t := by
  have hsame : topic.missing? defaultProduct t' = topic.missing? defaultProduct t :=
    h.missing? hother
  cases hmissing : topic.missing? defaultProduct t with
  | none =>
    obtain ⟨f, hf, hshows⟩ := Topic.generated_shows hc hmissing
    obtain ⟨f', hf', hshows'⟩ := Topic.generated_shows hc' (hsame.trans hmissing)
    rw [hf, hf', (h.shows hother hshows).unique hshows']
  | some fault =>
    rw [Topic.generated_missing hc hmissing, Topic.generated_missing hc' (hsame.trans hmissing)]

/-! What is exported next. -/

/-- The last export of the topic in the run answered `p`, and `p` is still what the topic has. -/
def IsCurrent (topic : Topic) (defaultProduct : Option String) (events : List Event)
    (p : topic.File) : Prop :=
  ∃ past e between first, events = past ++ e :: between ∧
    e.publication? = some (.known first topic) ∧
    ((start.run past).perform (exportFile e.now (topic.exporter first))).1 = .ok p ∧
    Quiet (topic.exporter defaultProduct).topic ((start.run past).after e) between ∧
    (topic.generated defaultProduct (start.run events)).map
      (Versioned.setVersion (Versioned.version p)) = .ok p

theorem IsCurrent.getLast? {p : topic.File} (h : IsCurrent topic defaultProduct events p) :
    ∃ row, ((start.run events).history (topic.exporter defaultProduct).topic).getLast? = some row ∧
      row.version = Versioned.version p ∧ row.signature = signature p := by
  obtain ⟨past, e, between, first, rfl, hpub, hp, hquiet, -⟩ := h
  obtain ⟨-, -, -, row, hlast, hversion, hsignature⟩ :=
    exportFile_answers (topic.exporter_fetches first) hp
  rw [← after_topic hpub, topic.exporter_topic first defaultProduct] at hlast
  have hrun : start.run (past ++ e :: between) = ((start.run past).after e).run between := by
    rw [run_append]
    rfl
  refine ⟨row, ?_, hversion, hsignature⟩
  rw [hrun, history_run_of_quiet hquiet, hlast]

theorem IsCurrent.exported {p : topic.File} (h : IsCurrent topic defaultProduct events p)
    (hledger : t'.ledger = (start.run events).ledger)
    (hsame : topic.generated defaultProduct t' = topic.generated defaultProduct (start.run events))
    (now : Instant) :
    t'.perform (exportFile now (topic.exporter defaultProduct)) = (.ok p, t') := by
  obtain ⟨row, hlast, hversion, hsignature⟩ := h.getLast?
  obtain ⟨-, -, -, -, -, -, -, -, hstill⟩ := h
  rw [← hsame] at hstill
  cases hfile : topic.generated defaultProduct t' with
  | error f =>
    rw [hfile] at hstill
    cases hstill
  | ok file =>
    rw [hfile] at hstill
    have hp : Versioned.setVersion (Versioned.version p) file = p := Except.ok.inj hstill
    have hlast' : (t'.history (topic.exporter defaultProduct).topic).getLast? = some row := by
      rw [history, hledger]
      exact hlast
    have hsigned : row.signature = signature file := by
      rw [hsignature, ← hp, signature_setVersion]
    rw [exportFile_reused (topic.exporter_fetches defaultProduct) hfile hlast' hsigned now, hversion,
      hp]

/-- After the events, what was done to the BFE cluster `x` left the rows of the others alone, what
other topics have to export, and the versions under which they export it. -/
structure LeavesOthers (x : String) (events : List Event) (t' : Tables) : Prop where
  rows : ∀ y, y ≠ x → ∀ k, t'.rowOf y k = (start.run events).rowOf y k
  contents : ∀ topic, topic ≠ .gslb x → ∀ defaultProduct,
    Topic.generated topic defaultProduct t' = topic.generated defaultProduct (start.run events)
  versions : ∀ topic, topic ≠ .gslb x → ∀ defaultProduct p,
    IsCurrent topic defaultProduct events p →
      ∀ now, t'.perform (exportFile now (topic.exporter defaultProduct)) = (.ok p, t')

theorem AgreeBut.leavesOthers (h : AgreeBut x (start.run events) t') (hc' : Consistent t') :
    LeavesOthers x events t' := by
  have hc : Consistent (start.run events) := Reachable.consistent ⟨events, rfl⟩
  have hledger : t'.ledger = (start.run events).ledger := by
    obtain ⟨n, bfes, matrices, heq⟩ := h.others
    rw [heq]
  refine ⟨h.rows, ?_, ?_⟩
  · intro topic hother defaultProduct
    exact h.generated hc hc' hother
  · intro topic hother defaultProduct p hcurrent
    exact hcurrent.exported hledger (h.generated hc hc' hother)

/-! A BFE cluster comes. -/

theorem add_bfeCluster (t : Tables) (d : BfeCluster.Draft) :
    t.add (.bfeCluster d) =
      { t with
        nextId := t.nextId + 1
        bfeClusters := t.bfeClusters.insert ⟨t.nextId⟩ (d.withId ⟨t.nextId⟩)
        loadMatrices := t.loadMatrices.map fun k e =>
          (e.1, e.2.insertRow d.name (LoadMatrix.defaultRow (t.boundNames k))) } := by
  simp [add, SortedMap.insert?, SortedMap.map_id, Addition.mount]

theorem agreeBut_add (hn : t.Numbered) (hn' : (t.add (.bfeCluster d)).Numbered) :
    AgreeBut d.name t (t.add (.bfeCluster d)) := by
  rw [add_bfeCluster] at hn' ⊢
  refine ⟨⟨_, _, _, rfl⟩, ?_, ?_⟩
  · intro y hy
    exact rowOf_of_map
      (fun k e => e.2.insertRow d.name (LoadMatrix.defaultRow (t.boundNames k))) rfl
      fun _ e => e.2.row?_insertRow_ne _ hy
  · intro y hy
    rw [mem_fleet_create hn hn' rfl]
    exact or_iff_right hy

theorem nextId_lt_of_created (hn : t.Numbered) {proposal : BfeCluster.Proposal}
    (hok : (t.perform (BfeClusters.create proposal)).1 = .ok b) :
    t.nextId < (t.perform (BfeClusters.create proposal)).2.nextId := by
  rw [BfeClusters.create] at hok ⊢
  cases hvalid : proposal.findings.refusal? with
  | some f =>
    rw [hvalid] at hok
    cases hok
  | none =>
    rw [hvalid] at hok
    obtain ⟨t', hw⟩ := yields_of_perform_update hok
    have hperform := perform_update_of_yields hw
    change t.nextId < (t.perform (.update _)).2.nextId
    rw [hperform]
    simp only [yields_bind, yields_ask, yields_refuseIf, yields_pure] at hw
    obtain ⟨_, _, hsame, _, _, ⟨-, rfl⟩, pool, _, hpool, _, _, ⟨-, rfl⟩, b, _, hcreate, cs, _, hcs, _,
      _, hall, _, rfl⟩ := hw
    cases hsame
    obtain ⟨rfl, -⟩ := requirePool_yields hn hpool
    cases hcreate
    cases hcs
    obtain ⟨ms, rfl, -⟩ := forAll_clusters_matrices hall extendMatrix_yields hn.clusters
    exact Int.lt_succ _

theorem Reachable.bfeCluster_added (h : t.Reachable) {proposal : BfeCluster.Proposal}
    (hok : (t.perform (BfeClusters.create proposal)).1 = .ok b) :
    ∃ d : BfeCluster.Draft, d.name = proposal.name ∧ d.name ∉ t.fleet ∧
      (t.perform (BfeClusters.create proposal)).2 = t.add (.bfeCluster d) ∧
      (t.add (.bfeCluster d)).Reachable := by
  have hnew := nextId_lt_of_created h.numbered hok
  obtain ⟨addition, hadds, heq⟩ :=
    call_adds h.consistent {} ⟨0⟩ (.createBfeCluster proposal) hnew
  have h' := h.after (.call {} ⟨0⟩ (.createBfeCluster proposal))
  rw [heq] at h'
  cases hadds with
  | @bfeCluster pool _ stored named =>
    refine ⟨_, rfl, ?_, heq, h'⟩
    -- An old one of that name would stand beside the new one, and names are unique.
    intro hknown
    obtain ⟨i, old, hold, hname⟩ := h.numbered.mem_fleet.1 hknown
    have hkept := get?_bfeClusters_add h.numbered hold
      (.bfeCluster ⟨proposal.name, pool.id, proposal.capacity, true⟩)
    have hid := h'.named.bfeClusters i ⟨t.nextId⟩ old _ hkept (get?_bfeClusters_add_next rfl) hname
    rw [hid, h.numbered.bfeClusters.get?_next] at hold
    cases hold

/-! A BFE cluster goes. -/

def withdraw (t : Tables) (b : BfeCluster) : Tables :=
  { t with
    bfeClusters := t.bfeClusters.erase b.id
    loadMatrices := t.loadMatrices.map fun _ e => (e.1, e.2.eraseRow b.name) }

theorem agreeBut_withdraw (hn : t.Numbered) (hn' : (t.withdraw b).Numbered) (hnamed : Named t)
    (hb : t.bfeClusters.get? b.id = some b) : AgreeBut b.name t (t.withdraw b) := by
  refine ⟨⟨_, _, _, rfl⟩, ?_, ?_⟩
  · intro y hy
    exact rowOf_of_map (fun _ e => e.2.eraseRow b.name) rfl fun _ e => e.2.row?_eraseRow_ne hy
  · intro y hy
    rw [mem_fleet_delete hn hn' hnamed hb rfl]
    exact and_iff_left hy

theorem shrunk_eq_map (hn : t.Numbered) (hb : Balanced t) (hh : Headed t) (hknown : x ∈ t.fleet)
    {ms : SortedMap ClusterId (ProductId × LoadMatrix)}
    (shrunk : ∀ {i c}, t.clusters.get? i = some c → ms.get? i = t.shrunkMatrix x c)
    (kept : ∀ {i}, t.clusters.get? i = none → ms.get? i = t.loadMatrices.get? i) :
    ms = t.loadMatrices.map fun _ e => (e.1, e.2.eraseRow x) := by
  apply SortedMap.ext
  intro k
  rw [SortedMap.get?_map]
  cases hm : t.loadMatrices.get? k with
  | some e =>
    obtain ⟨c, hc, howner⟩ := (hb k e.1).1 ⟨e.2, hm⟩
    have hrow : (e.2.row? x).isSome = true := (hh k e.1 e.2 hm x).2 hknown
    rw [shrunk hc, shrunkMatrix, hn.clusters.own hc, hm, Option.map_some, Option.map_some,
      if_pos hrow, howner]
  | none =>
    cases hc : t.clusters.get? k with
    | some c => rw [shrunk hc, shrunkMatrix, hn.clusters.own hc, hm, Option.map_none, Option.map_none]
    | none => rw [kept hc, hm, Option.map_none]

theorem shrinkMatrix_finds (t : Tables) (bfe : String) (c : Cluster.Record) :
    ∃ t' u, Yields answer t (BfeClusters.shrinkMatrix bfe c) u t' := by
  have hread : Yields answer t (ask (.fetchLoadMatrix c.id))
      ((t.loadMatrices.get? c.id).map Prod.snd) t := yields_ask.2 rfl
  cases hm : (t.loadMatrices.get? c.id).map Prod.snd with
  | none =>
    rw [hm] at hread
    exact ⟨t, (), yields_bind.2 ⟨none, t, hread, yields_done.2 ⟨rfl, rfl⟩⟩⟩
  | some m =>
    rw [hm] at hread
    have hwrite : ∃ t', Yields answer t (if (m.row? bfe).isSome = true then
        ask (.putLoadMatrix c.id c.productId (m.eraseRow bfe)) else .done ()) () t' := by
      split
      · exact ⟨_, yields_ask.2 rfl⟩
      · exact ⟨t, yields_done.2 ⟨rfl, rfl⟩⟩
    obtain ⟨t', ht'⟩ := hwrite
    exact ⟨t', (), yields_bind.2 ⟨some m, t, hread, ht'⟩⟩

theorem deleteBfeCluster_performs (hc : Consistent t) (hb : t.bfeClusters.get? b.id = some b) :
    t.perform (BfeClusters.delete b.name) = (.ok (), t.withdraw b) := by
  have hknown : b.name ∈ t.fleet := hc.numbered.mem_fleet.2 ⟨b.id, b, hb, rfl⟩
  have hadmits : BfeClusterFilter.admits { name := some b.name } b = true := by
    simp [BfeClusterFilter.admits]
  have hhead : (select t.bfeClusters (BfeClusterFilter.admits { name := some b.name })
      (·.name)).head? = some b := by
    apply hc.numbered.bfeClusters.head?_select_of_unique hb hadmits
    intro a ha hadm
    have hname : a.name = b.name := by simpa [BfeClusterFilter.admits] using hadm
    exact Indexed.eq_of_id_eq hb ha (hc.named.bfeClusters a.id b.id a b ha hb hname)
  obtain ⟨us, t', hall⟩ := exists_yields_forAll (fun t c => shrinkMatrix_finds t b.name c) t
    (select t.clusters (ClusterFilter.admits {}) Cluster.Record.name)
  obtain ⟨ms, rfl, hnew, hkept⟩ :=
    forAll_clusters_matrices hall shrinkMatrix_yields hc.numbered.clusters
  obtain rfl := shrunk_eq_map hc.numbered hc.intact.balanced hc.headed hknown hnew hkept
  apply perform_update_of_yields
  simp only [yields_bind, yields_ask, yields_require]
  refine ⟨_, t, rfl, b, t, ⟨hhead, rfl⟩, _, t, rfl, us, _, hall, ?_⟩
  rw [answer, change]
  dsimp only
  rw [hb]
  rfl

theorem stored_of_deleted (hn : t.Numbered)
    (hok : (t.perform (BfeClusters.delete x)).1 = .ok ()) :
    ∃ b, t.bfeClusters.get? b.id = some b ∧ b.name = x := by
  obtain ⟨t', hw⟩ := yields_of_perform_update hok
  simp only [yields_bind, yields_ask, yields_require] at hw
  obtain ⟨found, _, hfound, b, _, ⟨hhead, -⟩, -⟩ := hw
  cases hfound
  obtain ⟨hb, hadm⟩ := hn.bfeClusters.head?_select hhead
  exact ⟨b, hb, by simpa [BfeClusterFilter.admits] using hadm⟩

/-! One that came goes again. -/

theorem withdraw_add (hn : t.Numbered) (hh : Headed t) (hnew : d.name ∉ t.fleet) :
    (t.add (.bfeCluster d)).withdraw (d.withId ⟨t.nextId⟩) = { t with nextId := t.nextId + 1 } := by
  have hbfes : (t.bfeClusters.insert ⟨t.nextId⟩ (d.withId ⟨t.nextId⟩)).erase ⟨t.nextId⟩ =
      t.bfeClusters := SortedMap.erase_insert hn.bfeClusters.get?_next _
  have hmatrices : ((t.loadMatrices.map fun k e =>
      (e.1, e.2.insertRow d.name (LoadMatrix.defaultRow (t.boundNames k)))).map fun _ e =>
        (e.1, e.2.eraseRow d.name)) = t.loadMatrices := by
    apply SortedMap.ext
    intro k
    rw [SortedMap.get?_map, SortedMap.get?_map, Option.map_map]
    cases hm : t.loadMatrices.get? k with
    | none => rfl
    | some e =>
      -- No BFE cluster of that name was there, so the new row took no row's place.
      have hrow : e.2.row? d.name = none := by
        have habsent := mt (hh k e.1 e.2 hm d.name).1 hnew
        simpa [SortedMap.contains, LoadMatrix.row?] using habsent
      exact congrArg some (Prod.ext rfl (LoadMatrix.eraseRow_insertRow hrow _))
  rw [add_bfeCluster, withdraw]
  dsimp only [BfeCluster.Draft.withId] at hbfes ⊢
  rw [hbfes, hmatrices]

/-- After the events, the BFE cluster `x` came: every matrix has a default row for it, and if `x` goes
again the tables are as before. -/
structure Enlists (x : String) (events : List Event) (t' : Tables) : Prop
    extends LeavesOthers x events t' where
  rowOfNew : ∀ k r, (start.run events).clusters.get? k = some r →
    t'.rowOf x k =
      some (r.productId, some (LoadMatrix.defaultRow ((start.run events).boundNames k)))
  undone : t'.perform (BfeClusters.delete x) =
    (.ok (), { start.run events with nextId := (start.run events).nextId + 1 })

theorem rowOf_add (hb : Balanced t) {k : ClusterId} {r : Cluster.Record}
    (hr : t.clusters.get? k = some r) : (t.add (.bfeCluster d)).rowOf d.name k =
      some (r.productId, some (LoadMatrix.defaultRow (t.boundNames k))) := by
  obtain ⟨m, hm⟩ := (hb k r.productId).2 ⟨r, hr, rfl⟩
  rw [add_bfeCluster, rowOf, SortedMap.get?_map, hm]
  exact congrArg some (Prod.ext rfl (SortedMap.get?_insert_self _ _ _))

/-- After any events, a BFE cluster that is created or deleted leaves the rows of all others alone, and
what is exported besides its own file keeps its content and its version. A new one gets a default row
in every matrix; deleting it again undoes everything but the step of the counter. -/
theorem run_fleet_changes (events : List Event) :
    let t := start.run events
    (∀ proposal b, (t.perform (BfeClusters.create proposal)).1 = .ok b →
      Enlists proposal.name events (t.perform (BfeClusters.create proposal)).2) ∧
    (∀ x, (t.perform (BfeClusters.delete x)).1 = .ok () →
      LeavesOthers x events (t.perform (BfeClusters.delete x)).2) := by
  intro t
  have h : t.Reachable := ⟨events, rfl⟩
  refine ⟨?_, ?_⟩
  · intro proposal b hok
    obtain ⟨d, hname, hnew, hadded, h'⟩ := h.bfeCluster_added hok
    have hstored : (t.add (.bfeCluster d)).bfeClusters.get? ⟨t.nextId⟩ =
        some (d.withId ⟨t.nextId⟩) := get?_bfeClusters_add_next rfl
    have hundone := deleteBfeCluster_performs h'.consistent (b := d.withId ⟨t.nextId⟩) hstored
    rw [withdraw_add h.numbered h.headed hnew] at hundone
    rw [hadded, ← hname]
    refine ⟨(agreeBut_add h.numbered h'.numbered).leavesOthers h'.consistent, ?_, hundone⟩
    intro k r hr
    exact rowOf_add h.intact.balanced hr
  · intro x hok
    obtain ⟨b, hb, rfl⟩ := stored_of_deleted h.numbered hok
    have hperform := deleteBfeCluster_performs h.consistent hb
    have h' : (t.perform (BfeClusters.delete b.name)).2.Reachable :=
      h.after (.call {} ⟨0⟩ (.deleteBfeCluster b.name))
    rw [hperform] at h' ⊢
    exact (agreeBut_withdraw h.numbered h'.numbered h.named hb).leavesOthers h'.consistent

def rowsExported : List Event :=
  firstFleet ++ [.call {} ⟨1704067200000000⟩ (.exportTopic "gslb.bfe-a" none)]

theorem rowsExported_changes :
    let t := start.run rowsExported
    let first : Topic.File (.gslb "bfe-a") :=
      (⟨.ofList [("front", .ofList [("GSLB_BLACKHOLE", 0), ("east", 100)])], "bfe-a",
        "20240101000000000"⟩ : Gslb)
    (∃ b, (t.perform (BfeClusters.create ⟨"bfe-b", "BFE.edge", 0⟩)).1 = .ok b) ∧
      IsCurrent (.gslb "bfe-a") none rowsExported first ∧
      Enlists "bfe-b" rowsExported (t.perform (BfeClusters.create ⟨"bfe-b", "BFE.edge", 0⟩)).2 ∧
      (t.perform (BfeClusters.delete "bfe-a")).1 = .ok () ∧
      LeavesOthers "bfe-a" rowsExported (t.perform (BfeClusters.delete "bfe-a")).2 := by
  intro t first
  have hcreated : (t.perform (BfeClusters.create ⟨"bfe-b", "BFE.edge", 0⟩)).1.isOk = true := by
    decide +kernel
  have hdeleted : (t.perform (BfeClusters.delete "bfe-a")).1 = .ok () := by decide +kernel
  have hanswered : ((start.run firstFleet).perform
      (exportFile ⟨1704067200000000⟩ (Topic.exporter none (.gslb "bfe-a")))).1 = .ok first := by
    decide +kernel
  have hstill : (Topic.generated (.gslb "bfe-a") none (start.run rowsExported)).map
      (Versioned.setVersion "20240101000000000") = .ok first := by decide +kernel
  obtain ⟨b, hb⟩ := exists_of_isOk hcreated
  obtain ⟨hcreates, hdeletes⟩ := run_fleet_changes rowsExported
  exact ⟨⟨b, hb⟩, ⟨firstFleet, _, [], none, rfl, rfl, hanswered, trivial, hstill⟩,
    hcreates _ b hb, hdeleted, hdeletes "bfe-a" hdeleted⟩

end FleetControl.Store.Tables
