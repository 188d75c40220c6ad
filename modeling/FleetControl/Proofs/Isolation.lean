import FleetControl.Proofs.Managers
import FleetControl.Proofs.Runs

/-!
The topics of the ledger are isolated from each other. Two tables are alike for a topic if they have
the same fleet and the same rows of that topic; every event keeps them alike, and an export of another
topic can be left out on either side.
-/

namespace FleetControl.Store

namespace Tables

open Work

variable {t t' : Tables} {topic : String} {α : Type}

def withLedger (t : Tables) (ledger : List ConfigVersion) : Tables := { t with ledger := ledger }

theorem writeEach_withLedger {ι : Type} {write : Tables → ι → Except Fault Tables}
    {ledger : List ConfigVersion}
    (hwrite : ∀ t i, write (t.withLedger ledger) i = (write t i).map (·.withLedger ledger))
    (is : List ι) (t : Tables) : writeEach write is (t.withLedger ledger) =
      ((writeEach write is t).1, (writeEach write is t).2.withLedger ledger) := by
  induction is generalizing t with
  | nil => rfl
  | cons i is ih =>
    rw [writeEach, writeEach, hwrite]
    cases write t i with
    | ok next => exact ih next
    | error f => rfl

theorem change_withLedger {kind : Kind} (resource : String) (table : SortedMap (Id kind) α)
    (id : Id kind) (t : Tables) {write write' : α → Tables} {ledger : List ConfigVersion}
    (hwrite : ∀ a, write' a = (write a).withLedger ledger) :
    change resource table id (t.withLedger ledger) write' =
      ((change resource table id t write).1,
        (change resource table id t write).2.withLedger ledger) := by
  rw [change, change]
  split
  · rw [hwrite]
  · rfl

theorem bindOne_withLedger (t : Tables) (ledger : List ConfigVersion) (cluster : ClusterId)
    (i : SubClusterId) : bindOne (t.withLedger ledger) cluster i =
      (bindOne t cluster i).map (·.withLedger ledger) := by
  have hsame : (t.withLedger ledger).subClusters = t.subClusters := rfl
  rw [bindOne, bindOne, hsame]
  cases t.subClusters.get? i with
  | none => rfl
  | some r =>
    dsimp only
    cases r.clusterId <;> rfl

theorem unbindOne_withLedger (t : Tables) (ledger : List ConfigVersion) (i : SubClusterId) :
    unbindOne (t.withLedger ledger) i = (unbindOne t i).map (·.withLedger ledger) := by
  have hsame : (t.withLedger ledger).subClusters = t.subClusters := rfl
  rw [unbindOne, unbindOne, hsame]
  cases t.subClusters.get? i <;> rfl

theorem answer_withLedger {r : Request} (hr : r.fleet = true) (t : Tables)
    (ledger : List ConfigVersion) : answer r (t.withLedger ledger) =
      ((answer r t).1, (answer r t).2.withLedger ledger) := by
  cases r with
  | latestVersion | versionHistory | appendVersion => cases hr
  | bindSubClusters cluster ids =>
    exact writeEach_withLedger (fun t i => bindOne_withLedger t ledger cluster i) ids t
  | unbindSubClusters ids =>
    exact writeEach_withLedger (fun t i => unbindOne_withLedger t ledger i) ids t
  | updateProduct | deleteProduct | updatePoolInstances | deletePool | deleteBfeCluster
  | updateSubCluster | deleteSubCluster | updateCluster | deleteCluster | deleteDomain
  | setDefaultCertificate | deleteCertificate => exact change_withLedger _ _ _ t fun _ => rfl
  | _ => rfl

theorem answer_ledger {r : Request} (hr : r.fleet = true) (t : Tables) :
    (answer r t).2.ledger = t.ledger := by
  have hself : answer r t = ((answer r t).1, (answer r t).2.withLedger t.ledger) :=
    answer_withLedger hr t t.ledger
  rw [hself]
  rfl

theorem ledger_perform {op : Operation α} (hop : op.Commits (·.fleet = true)) (t : Tables) :
    (t.perform op).2.ledger = t.ledger := by
  cases op with
  | refuse f => rfl
  | query w => rfl
  | update w =>
    have hrun : (w.run answer t).2.ledger = t.ledger :=
      Only.preserves (I := fun s => s.ledger = t.ledger) hop
        (fun r s hr hs => (answer_ledger hr s).trans hs) rfl
    rw [perform]
    split
    · rename_i a t' heq
      rw [heq] at hrun
      exact hrun
    · rfl

/-! Tables that are alike for a topic. -/

def Alike (topic : String) (t t' : Tables) : Prop :=
  ∃ ledger, t' = t.withLedger ledger ∧ t'.history topic = t.history topic

theorem Alike.refl (topic : String) (t : Tables) : Alike topic t t := ⟨t.ledger, rfl, rfl⟩

theorem history_append (t : Tables) (ledger : List ConfigVersion) (topic : String)
    (row : ConfigVersion) : (t.withLedger (ledger ++ [row])).history topic =
      (t.withLedger ledger).history topic ++ [row].filter (·.topic = topic) :=
  List.filter_append ..

theorem history_append_self (t : Tables) (row : ConfigVersion) :
    Tables.history { t with ledger := t.ledger ++ [row] } row.topic =
      t.history row.topic ++ [row] := by
  have hself : [row].filter (·.topic = row.topic) = [row] := by simp
  show (t.withLedger (t.ledger ++ [row])).history row.topic = _
  rw [history_append, hself]
  rfl

theorem history_append_other (t : Tables) {row : ConfigVersion} (h : row.topic ≠ topic) :
    Tables.history { t with ledger := t.ledger ++ [row] } topic = t.history topic := by
  have hskip : [row].filter (·.topic = topic) = [] := by simp [h]
  show (t.withLedger (t.ledger ++ [row])).history topic = _
  rw [history_append, hskip, List.append_nil]
  rfl

theorem Alike.other (ha : Alike topic t t') {row : ConfigVersion} (h : row.topic ≠ topic) :
    Alike topic { t with ledger := t.ledger ++ [row] } t' := by
  obtain ⟨ledger, rfl, hrows⟩ := ha
  refine ⟨ledger, rfl, ?_⟩
  exact hrows.trans (history_append_other t h).symm

end Tables

inductive Request.Within (topic : String) : Request → Prop where
  | fleet {r : Request} (h : r.fleet = true) : Within topic r
  | latest : Within topic (.latestVersion topic)
  | append (row : ConfigVersion) : Within topic (.appendVersion row)

namespace Tables

open Work

variable {t t' : Tables} {topic : String} {α : Type}

theorem Alike.answer (ha : Alike topic t t') {r : Request} (hr : r.Within topic) :
    (answer r t').1 = (answer r t).1 ∧ Alike topic (answer r t).2 (answer r t').2 := by
  obtain ⟨ledger, rfl, hrows⟩ := ha
  cases hr with
  | fleet hfleet =>
    rw [answer_withLedger hfleet]
    refine ⟨rfl, ledger, rfl, ?_⟩
    have hkept := answer_ledger hfleet t
    show (t.withLedger ledger).history topic = (Tables.answer r t).2.history topic
    rw [hrows, history, history, hkept]
  | latest =>
    have hlast : ((t.withLedger ledger).history topic).getLast? = (t.history topic).getLast? := by
      rw [hrows]
    exact ⟨congrArg Except.ok hlast, ledger, rfl, hrows⟩
  | append row =>
    refine ⟨rfl, ledger ++ [row], rfl, ?_⟩
    show (t.withLedger (ledger ++ [row])).history topic =
      (t.withLedger (t.ledger ++ [row])).history topic
    rw [history_append, history_append, hrows]
    rfl

theorem Alike.run (ha : Alike topic t t') {w : Work α} (hw : w.Only (·.Within topic)) :
    (w.run Tables.answer t').1 = (w.run Tables.answer t).1 ∧
      Alike topic (w.run Tables.answer t).2 (w.run Tables.answer t').2 := by
  induction w generalizing t t' with
  | done a => exact ⟨rfl, ha⟩
  | fail f => exact ⟨rfl, ha⟩
  | step r next ih =>
    -- The answers agree, so both runs go on with one program.
    obtain ⟨hr, hnext⟩ := hw
    obtain ⟨hanswer, halike⟩ := ha.answer hr
    rw [Work.run, Work.run]
    rcases heq : Tables.answer r t with ⟨x, u⟩
    rcases heq' : Tables.answer r t' with ⟨x', u'⟩
    rw [heq, heq'] at hanswer halike
    obtain rfl : x' = x := hanswer
    cases x' with
    | ok x => exact ih x halike (hnext x)
    | error f => exact ⟨rfl, halike⟩

theorem Alike.perform (ha : Alike topic t t') {op : Operation α}
    (hop : op.Commits (·.Within topic)) : Alike topic (t.perform op).2 (t'.perform op).2 := by
  cases op with
  | refuse f => exact ha
  | query w => exact ha
  | update w =>
    obtain ⟨hanswer, halike⟩ := ha.run hop
    rw [Tables.perform, Tables.perform]
    rcases heq : w.run Tables.answer t with ⟨x, u⟩
    rcases heq' : w.run Tables.answer t' with ⟨x', u'⟩
    rw [heq, heq'] at hanswer halike
    obtain rfl : x' = x := hanswer
    -- A failed update is dropped on both sides.
    cases x' with
    | ok a => exact halike
    | error f => exact ha

end Tables
end FleetControl.Store

namespace FleetControl.Export

open Store Store.Work

variable {α : Type} [Versioned α] [Json.Encode α]

theorem chooseVersion_asks {P : Request → Prop} (happend : ∀ row, P (.appendVersion row))
    (now : Instant) (topic signature : String) (latest : Option ConfigVersion) :
    (chooseVersion now topic signature latest).Only P := by
  have hmint (last : Option String) : (chooseVersion.mintRow now topic signature last).Only P :=
    only_bind (only_ofExcept _) fun _ => only_bind (only_ask (happend _)) fun _ => only_pure _
  cases latest with
  | none => exact hmint none
  | some last =>
    unfold chooseVersion
    dsimp only
    split
    · exact only_done _
    · exact hmint _

theorem exportFile_asks {P : Request → Prop} {e : Exporter α} (hgenerate : e.generate.Only P)
    (hlock : P (.lockTopic e.topic)) (hlatest : P (.latestVersion e.topic))
    (happend : ∀ row, P (.appendVersion row)) (now : Instant) : (exportFile now e).Asks P := by
  refine only_bind (only_ask hlock) fun _ => ?_
  refine only_bind hgenerate fun file => ?_
  refine only_bind (only_ask hlatest) fun latest => ?_
  exact only_bind (chooseVersion_asks happend now e.topic _ latest) fun _ => only_pure _

theorem exportTopic_asks {P : Request → Prop} (hP : AllowsReads P)
    (hlock : ∀ topic, P (.lockTopic topic)) (hlatest : ∀ topic, P (.latestVersion topic))
    (happend : ∀ row, P (.appendVersion row)) (defaultProduct : Option String) (now : Instant)
    (topic : String) (last : Option String) :
    (exportTopic defaultProduct now topic last).Asks P := by
  have hexport {β : Type} [Versioned β] [Json.Encode β] {e : Exporter β}
      (he : e.generate.Only (·.fetches = true)) : (asJson (exportIfChanged now e last)).Asks P :=
    ((exportFile_asks (he.imp hP) (hlock _) (hlatest _) happend now).map _).map _
  unfold exportTopic
  cases Topic.ofName? topic with
  | none => trivial
  | some known =>
    cases known with
    | routeRule => exact hexport routeTable_fetches
    | hostTable => exact hexport (hostTable_fetches defaultProduct)
    | clusterTable => exact hexport clusterTable_fetches
    | instanceTable => exact hexport instanceTable_fetches
    | certificate => exact hexport serverCerts_fetches
    | gslb bfe => exact hexport (gslb_fetches bfe)

theorem exportFile_within {e : Exporter α} (he : e.generate.Only (·.fetches = true))
    (now : Instant) : (exportFile now e).Commits (·.Within e.topic) := by
  have hgenerate : e.generate.Only (·.Within e.topic) :=
    he.imp fun r hr => .fleet (allowsReads_fleet r hr)
  exact (exportFile_asks hgenerate (.fleet rfl) .latest .append now).commits

end FleetControl.Export

namespace FleetControl.Store

namespace Event

def now : Event → Instant
  | .call _ now _ | .publish now _ => now

def publication? : Event → Option Publication
  | .call settings _ (.exportTopic name _) =>
    (Export.Topic.ofName? name).map (Publication.known settings.defaultProduct)
  | .call .. => none
  | .publish _ p => some p

def topic? : Event → Option String
  | .call _ _ (.exportTopic name _) => some name
  | .call .. => none
  | .publish _ p => some p.exporter.topic

def concerns (topic : String) (e : Event) : Bool := e.topic?.all (· = topic)

theorem topic?_of_publication {e : Event} {p : Publication} (h : e.publication? = some p) :
    e.topic? = some p.exporter.topic := by
  cases e with
  | publish now q =>
    cases h
    rfl
  | call settings now c =>
    cases c <;> try cases h
    obtain ⟨known, hknown, rfl⟩ := Option.map_eq_some_iff.1 h
    rw [Publication.known_topic settings.defaultProduct hknown]
    rfl

end Event

namespace Tables

variable {t t' : Tables} {topic : String} {e : Event} {p : Publication}

theorem perform_exportTopic {settings : ControlSettings} {now : Instant} {name : String}
    {last : Option String}
    (h : (Event.call settings now (.exportTopic name last)).publication? = some p) (t : Tables) :
    t.perform (Call.operation settings now (.exportTopic name last)) =
      ((t.perform (Export.exportFile now p.exporter)).1.map fun file =>
          (Export.ifChanged last file).map encode,
        (t.perform (Export.exportFile now p.exporter)).2) := by
  obtain ⟨known, hknown, rfl⟩ := Option.map_eq_some_iff.1 h
  rw [Call.operation, Export.exportTopic, hknown]
  exact Publication.perform_exportKnown settings.defaultProduct now last known t

theorem after_publication (h : e.publication? = some p) (t : Tables) :
    t.after e = (t.perform (Export.exportFile e.now p.exporter)).2 := by
  cases e with
  | publish now q =>
    cases h
    rfl
  | call settings now c =>
    cases c <;> try cases h
    exact congrArg Prod.snd (perform_exportTopic h t)

theorem after_unknown (h : e.publication? = none) (hexport : e.topic? ≠ none) (t : Tables) :
    t.after e = t := by
  cases e with
  | publish now q => cases h
  | call settings now c =>
    cases c <;> try exact absurd rfl hexport
    rename_i name last
    have hunknown : Export.Topic.ofName? name = none := Option.map_eq_none_iff.1 h
    rw [after, Call.operation, Export.exportTopic, hunknown]
    rfl

theorem after_fleet (h : e.publication? = none) :
    ∃ (α : Type) (op : Operation α), op.Commits (·.fleet = true) ∧
      ∀ t : Tables, t.after e = (t.perform op).2 := by
  cases e with
  | publish now q => cases h
  | call settings now c =>
    refine ⟨_, c.operation settings now, ?_, fun _ => rfl⟩
    by_cases hexport : ∃ name last, c = .exportTopic name last
    · obtain ⟨name, last, rfl⟩ := hexport
      have hunknown : Export.Topic.ofName? name = none := Option.map_eq_none_iff.1 h
      rw [Call.operation, Export.exportTopic, hunknown]
      trivial
    · exact c.operation_fleet settings now fun name last hc => hexport ⟨name, last, hc⟩

theorem ledger_after (h : e.publication? = none) (t : Tables) :
    (t.after e).ledger = t.ledger := by
  obtain ⟨α, op, hop, hafter⟩ := after_fleet h
  rw [hafter]
  exact ledger_perform hop t

theorem Alike.after (ha : Alike topic t t') (h : e.concerns topic = true) :
    Alike topic (t.after e) (t'.after e) := by
  cases hpub : e.publication? with
  | none =>
    obtain ⟨α, op, hop, hafter⟩ := after_fleet hpub
    rw [hafter, hafter]
    exact ha.perform (hop.imp fun _ => .fleet)
  | some p =>
    rw [after_publication hpub, after_publication hpub]
    have htopic : p.exporter.topic = topic := by
      simpa [Event.concerns, Event.topic?_of_publication hpub] using h
    rw [← htopic] at ha ⊢
    exact ha.perform (Export.exportFile_within p.fetches e.now)

theorem Alike.skip (ha : Alike topic t t') (h : e.concerns topic = false) :
    Alike topic (t.after e) t' := by
  cases hpub : e.publication? with
  | none =>
    rw [after_unknown hpub (fun hnone => by simp [Event.concerns, hnone] at h)]
    exact ha
  | some p =>
    have htopic : p.exporter.topic ≠ topic := by
      simpa [Event.concerns, Event.topic?_of_publication hpub] using h
    rw [after_publication hpub]
    rcases Export.exportFile_cases p.fetches e.now t with ⟨f, hf⟩ | ⟨file, version, u, -, hu, hok⟩
    · rw [hf]
      exact ha
    · rw [hok]
      cases hu with
      | reused => exact ha
      | minted => exact ha.other htopic

theorem Alike.run_filter (ha : Alike topic t t') (events : List Event) :
    Alike topic (t.run events) (t'.run (events.filter (·.concerns topic))) := by
  induction events generalizing t t' with
  | nil => exact ha
  | cons e events ih =>
    cases h : e.concerns topic with
    | true =>
      rw [List.filter_cons_of_pos h]
      exact ih (ha.after h)
    | false =>
      rw [List.filter_cons_of_neg (by simp [h])]
      exact ih (ha.skip h)

/-- Exports of other topics can be left out of a run without a trace in this topic's rows. -/
theorem history_run_filter (topic : String) (events : List Event) (t : Tables) :
    (t.run events).history topic = (t.run (events.filter (·.concerns topic))).history topic := by
  obtain ⟨ledger, -, hrows⟩ := (Alike.refl topic t).run_filter events
  exact hrows.symm

end Tables
end FleetControl.Store
