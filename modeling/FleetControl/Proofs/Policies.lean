import FleetControl.Proofs.Generated

/-!
Policies keep their bounds. A request is checked before anything is stored, and the file of policies has
an entry for each cluster that carries its policies as they are stored. So the bounds on requests are
bounds on the file, and a header to hash by is in it exactly for the strategies that read one.
-/

namespace FleetControl

/-! Bounds of single policies. -/

theorem ConnectionPolicy.isClean_findings {p : ConnectionPolicy} : p.findings.isClean = true ↔
    0 ≤ p.maxIdleConnPerHost.toInt ∧ p.maxIdleConnPerHost.toInt ≤ 10000 := by
  simp [findings, Validation.range_eq_none]

theorem RetryPolicy.isClean_findings {p : RetryPolicy} : p.findings.isClean = true ↔
    (0 ≤ p.maxRetryInSubcluster.toInt ∧ p.maxRetryInSubcluster.toInt ≤ 10) ∧
      0 ≤ p.maxRetryCrossSubcluster.toInt ∧ p.maxRetryCrossSubcluster.toInt ≤ 10 := by
  simp [findings, Validation.range_eq_none]

theorem BufferPolicy.isClean_findings {p : BufferPolicy} : p.findings.isClean = true ↔
    1 ≤ p.reqWriteBufferSize.toInt ∧ 0 ≤ p.reqFlushInterval.toInt ∧
      -1 ≤ p.resFlushInterval.toInt := by
  simp [findings, Validation.range_eq_none, and_assoc]

theorem TimeoutPolicy.isClean_findings {p : TimeoutPolicy} : p.findings.isClean = true ↔
    1 ≤ p.connBackend.toInt ∧ 1 ≤ p.responseHeader.toInt ∧ 1 ≤ p.readClient.toInt ∧
      1 ≤ p.readClientAgain.toInt ∧ 1 ≤ p.writeClient.toInt := by
  simp [findings, Validation.range_eq_none, and_assoc]

theorem ClusterBasic.isClean_findings {b : ClusterBasic} : b.findings.isClean = true ↔
    b.connection.findings.isClean = true ∧ b.retries.findings.isClean = true ∧
      b.buffers.findings.isClean = true ∧ b.timeouts.findings.isClean = true := by
  simp [findings, and_assoc]

theorem PassiveHealthCheck.isClean_findings {c : PassiveHealthCheck} : c.findings.isClean = true ↔
    1 ≤ c.interval.toInt ∧ 1 ≤ c.failnum.toInt ∧
      0 ≤ c.statuscode.toInt ∧ c.statuscode.toInt ≤ 599 := by
  simp [findings, Validation.range_eq_none, and_assoc]

namespace StickySessions

variable {s : StickySessions}

theorem refusal?_eq_none : s.refusal? = none ↔ s.lacksHeader = false := by
  rw [refusal?]
  split <;> simp_all

theorem lacksHeader_eq_false : s.lacksHeader = false ↔
    (s.hashStrategy.usesHeader = true → ∃ h, s.hashHeader = some h ∧ Text.allBlank h = false) := by
  cases hheader : s.hashHeader <;> simp [lacksHeader, hheader]

end StickySessions

theorem HealthCheckSchema.find?_text (s : HealthCheckSchema) :
    ([.http, .https, .tcp].find? fun s' : HealthCheckSchema => s'.text = s.text) = some s := by
  cases s <;> decide

theorem HashStrategy.find?_code (s : HashStrategy) :
    ([.clientIdOnly, .clientIpOnly, .clientIdPreferred].find? fun s' : HashStrategy =>
      s'.code = s.code) = some s := by
  cases s <;> decide

theorem HashStrategy.usesHeader_iff {s : HashStrategy} :
    s.usesHeader = true ↔ s.code = 0 ∨ s.code = 2 := by
  cases s <;> decide

/-! Clusters whose policies passed the checks. -/

namespace Cluster

structure Record.Admitted (r : Record) : Prop where
  unreserved : isReservedName r.name = false
  basic : r.basic.findings.isClean = true
  sticky : r.stickySessions.lacksHeader = false
  check : r.passiveHealthCheck.findings.isClean = true

theorem Proposal.isClean_policies {p : Proposal} (h : p.findings.refusal? = none) :
    p.basic.findings.isClean = true ∧ p.passiveHealthCheck.findings.isClean = true := by
  simp only [Findings.refusal?_eq_none, findings, Findings.isClean_append,
    Findings.isClean_inside] at h
  exact ⟨h.1.2, h.2⟩

theorem Record.Admitted.apply {r : Record} {change : Change} (h : r.Admitted)
    (hfindings : change.findings.refusal? = none)
    (hsticky : change.stickySessions.bind StickySessions.refusal? = none) :
    (change.apply r).Admitted := by
  simp only [Findings.refusal?_eq_none, Change.findings, Findings.isClean_append,
    Findings.isClean_inside] at hfindings
  obtain ⟨⟨-, hbasic⟩, hcheck⟩ := hfindings
  refine ⟨h.unreserved, ?_, ?_, ?_⟩
  · rw [Change.apply]
    cases hb : change.basic with
    | none => exact h.basic
    | some b => simpa [hb] using hbasic
  · rw [Change.apply]
    cases hs : change.stickySessions with
    | none => exact h.sticky
    | some s => simpa [hs, StickySessions.refusal?_eq_none] using hsticky
  · rw [Change.apply]
    cases hc : change.passiveHealthCheck with
    | none => exact h.check
    | some c => simpa [hc] using hcheck

end Cluster

/-! What an entry of the file of policies says. -/

/-- The stickiness as it works: a header has no part in it unless the strategy reads one. -/
def StickySessions.inForce (s : StickySessions) : StickySessions :=
  { s with hashHeader := if s.hashStrategy.usesHeader then s.hashHeader else none }

namespace Files

namespace ClusterConf

variable {c : ClusterConf} {r : Cluster.Record}

def basic (c : ClusterConf) : ClusterBasic where
  connection := ⟨c.backendConf.maxIdleConnsPerHost, c.clusterBasic.cancelOnClientClose⟩
  retries := ⟨c.gslbBasic.retryMax, c.gslbBasic.crossRetry⟩
  buffers := ⟨c.clusterBasic.reqWriteBufferSize, c.clusterBasic.reqFlushInterval,
    c.clusterBasic.resFlushInterval⟩
  timeouts := ⟨c.backendConf.timeoutConnSrv, c.backendConf.timeoutResponseHeader,
    c.clusterBasic.timeoutReadClient, c.clusterBasic.timeoutReadClientAgain,
    c.clusterBasic.timeoutWriteClient⟩

def check? (c : ClusterConf) : Option PassiveHealthCheck :=
  ([.http, .https, .tcp].find? fun s : HealthCheckSchema => s.text = c.checkConf.schem).map fun s =>
    ⟨s, c.checkConf.checkInterval, c.checkConf.failNum, c.checkConf.statusCode, c.checkConf.host,
      c.checkConf.uri⟩

def sticky? (c : ClusterConf) : Option StickySessions :=
  ([.clientIdOnly, .clientIpOnly, .clientIdPreferred].find? fun s : HashStrategy =>
    s.code = c.gslbBasic.hashConf.hashStrategy).map fun s =>
      ⟨if c.gslbBasic.hashConf.sessionSticky then .backend else .subCluster, s,
        c.gslbBasic.hashConf.hashHeader⟩

/-- Read as policies, the entry is those of the cluster. -/
structure Carries (c : ClusterConf) (r : Cluster.Record) : Prop where
  basic : c.basic = r.basic
  check : c.check? = some r.passiveHealthCheck
  sticky : c.sticky? = some r.stickySessions.inForce

theorem checkConf_eq (h : c.check? = some r.passiveHealthCheck) :
    c.checkConf = (ofRecord r).checkConf := by
  obtain ⟨schema, hfind, hcheck⟩ := Option.map_eq_some_iff.1 h
  have htext : schema.text = c.checkConf.schem := by simpa using List.find?_some hfind
  rw [ofRecord, ← hcheck]
  dsimp only
  rw [htext]

theorem hashConf_eq (h : c.sticky? = some r.stickySessions.inForce) :
    c.gslbBasic.hashConf = (ofRecord r).gslbBasic.hashConf := by
  obtain ⟨strategy, hfind, hsticky⟩ := Option.map_eq_some_iff.1 h
  have hcode : strategy.code = c.gslbBasic.hashConf.hashStrategy := by
    simpa using List.find?_some hfind
  have htype := congrArg StickySessions.stickyType hsticky
  have hstrategy := congrArg StickySessions.hashStrategy hsticky
  have hheader := congrArg StickySessions.hashHeader hsticky
  dsimp only [StickySessions.inForce] at htype hstrategy hheader
  have hbound : c.gslbBasic.hashConf.sessionSticky =
      decide (r.stickySessions.stickyType = .backend) := by
    rw [← htype]
    cases c.gslbBasic.hashConf.sessionSticky <;> rfl
  rw [ofRecord, ← hheader, ← hstrategy, hcode, ← hbound]

/-- There is one entry that carries a cluster's policies, and it is the one that is exported. -/
theorem carries_iff : c.Carries r ↔ c = ofRecord r := by
  constructor
  · rintro ⟨hbasic, hcheck, hsticky⟩
    have hchecks := checkConf_eq hcheck
    have hhash := hashConf_eq hsticky
    dsimp only [ofRecord] at hchecks hhash ⊢
    rw [← hbasic, ← hchecks, ← hhash]
    rfl
  · rintro rfl
    refine ⟨rfl, ?_, ?_⟩
    · dsimp only [check?, ofRecord]
      rw [HealthCheckSchema.find?_text]
      rfl
    · have htype : (if decide (r.stickySessions.stickyType = .backend) = true then .backend
          else .subCluster) = r.stickySessions.stickyType := by
        cases r.stickySessions.stickyType <;> rfl
      dsimp only [sticky?, ofRecord, StickySessions.inForce]
      rw [HashStrategy.find?_code, Option.map_some, htype]

end ClusterConf

structure ClusterConf.WithinBounds (c : ClusterConf) : Prop where
  maxIdleConnsPerHost : 0 ≤ c.backendConf.maxIdleConnsPerHost.toInt ∧
    c.backendConf.maxIdleConnsPerHost.toInt ≤ 10000
  retryMax : 0 ≤ c.gslbBasic.retryMax.toInt ∧ c.gslbBasic.retryMax.toInt ≤ 10
  crossRetry : 0 ≤ c.gslbBasic.crossRetry.toInt ∧ c.gslbBasic.crossRetry.toInt ≤ 10
  reqWriteBufferSize : 1 ≤ c.clusterBasic.reqWriteBufferSize.toInt
  reqFlushInterval : 0 ≤ c.clusterBasic.reqFlushInterval.toInt
  resFlushInterval : -1 ≤ c.clusterBasic.resFlushInterval.toInt
  timeoutConnSrv : 1 ≤ c.backendConf.timeoutConnSrv.toInt
  timeoutResponseHeader : 1 ≤ c.backendConf.timeoutResponseHeader.toInt
  timeoutReadClient : 1 ≤ c.clusterBasic.timeoutReadClient.toInt
  timeoutWriteClient : 1 ≤ c.clusterBasic.timeoutWriteClient.toInt
  timeoutReadClientAgain : 1 ≤ c.clusterBasic.timeoutReadClientAgain.toInt
  checkInterval : 1 ≤ c.checkConf.checkInterval.toInt
  failNum : 1 ≤ c.checkConf.failNum.toInt
  statusCode : 0 ≤ c.checkConf.statusCode.toInt ∧ c.checkConf.statusCode.toInt ≤ 599
  hashHeader : c.gslbBasic.hashConf.hashHeader.isSome = true ↔
    c.gslbBasic.hashConf.hashStrategy = 0 ∨ c.gslbBasic.hashConf.hashStrategy = 2
  hashHeaderNotBlank : ∀ h ∈ c.gslbBasic.hashConf.hashHeader, Text.allBlank h = false

theorem ClusterConf.withinBounds_ofRecord {r : Cluster.Record} (h : r.Admitted) :
    (ofRecord r).WithinBounds := by
  obtain ⟨hconnection, hretries, hbuffers, htimeouts⟩ := ClusterBasic.isClean_findings.1 h.basic
  obtain ⟨hin, hcross⟩ := RetryPolicy.isClean_findings.1 hretries
  obtain ⟨hsize, hreq, hres⟩ := BufferPolicy.isClean_findings.1 hbuffers
  obtain ⟨hconn, hresponse, hread, hagain, hwrite⟩ := TimeoutPolicy.isClean_findings.1 htimeouts
  obtain ⟨hinterval, hfail, hstatus⟩ := PassiveHealthCheck.isClean_findings.1 h.check
  have hheader := StickySessions.lacksHeader_eq_false.1 h.sticky
  exact {
    maxIdleConnsPerHost := ConnectionPolicy.isClean_findings.1 hconnection
    retryMax := hin
    crossRetry := hcross
    reqWriteBufferSize := hsize
    reqFlushInterval := hreq
    resFlushInterval := hres
    timeoutConnSrv := hconn
    timeoutResponseHeader := hresponse
    timeoutReadClient := hread
    timeoutWriteClient := hwrite
    timeoutReadClientAgain := hagain
    checkInterval := hinterval
    failNum := hfail
    statusCode := hstatus
    hashHeader := by
      rw [ofRecord, ← HashStrategy.usesHeader_iff]
      split
      · rename_i huses
        obtain ⟨name, hname, -⟩ := hheader huses
        simp [hname, huses]
      · rename_i huses
        simp [huses]
    hashHeaderNotBlank := by
      intro name hmem
      rw [ofRecord] at hmem
      split at hmem
      · rename_i huses
        obtain ⟨name', hname, hblank⟩ := hheader huses
        obtain rfl : name' = name := Option.some.inj (hname.symm.trans hmem)
        exact hblank
      · cases hmem }

end Files

namespace Store.Tables

open Control Export Files

variable {t t' : Tables} {ignoreReadiness : Bool} {c : Call}

def Vetted (t : Tables) : Prop := ∀ i r, t.clusters.get? i = some r → r.Admitted

theorem vetted_start : Vetted start := by
  intro i r hget
  simp [start] at hget

theorem Vetted.put (h : Vetted t) {i : ClusterId} {r : Cluster.Record} (hr : r.Admitted)
    (hclusters : t'.clusters = t.clusters.insert i r) : Vetted t' := by
  intro j r' hget
  rw [hclusters] at hget
  rcases SortedMap.get?_insert_eq_some.1 hget with ⟨-, rfl⟩ | ⟨-, hget⟩
  · exact hr
  · exact h j r' hget

theorem Vetted.effect (h : Vetted t) (he : Effect ignoreReadiness t c t') : Vetted t' := by
  cases he with
  | clusterCreated valid unreserved sticky =>
    obtain ⟨hbasic, hcheck⟩ := Cluster.Proposal.isClean_policies valid
    refine h.put ?_ rfl
    exact ⟨unreserved, hbasic, StickySessions.refusal?_eq_none.1 sticky, hcheck⟩
  | clusterUpdated valid sticky _ stored => exact h.put ((h _ _ stored).apply valid sticky) rfl
  | clusterDeleted => exact fun i r hget => h i r (SortedMap.get?_erase_eq_some.1 hget).2
  | _ => exact h

theorem Reachable.vetted (h : t.Reachable) : Vetted t :=
  h.invariant vetted_start fun _ hi he => hi.effect he

/-- The file of policies has an entry for every cluster and for nothing else, and the entry carries the
policies that the cluster has. -/
theorem Consistent.carries_policies (h : Consistent t) (defaultProduct : Option String) :
    ∃ f, Topic.clusterTable.generated defaultProduct t = .ok f ∧
      ∀ n conf, f.config.get? n = some conf ↔
        ∃ i r, t.clusters.get? i = some r ∧ r.name = n ∧ conf.Carries r := by
  have hpresent : Topic.clusterTable.missing? defaultProduct t = none := rfl
  obtain ⟨f, hgenerated, hshows⟩ := Topic.generated_shows h hpresent
  refine ⟨f, hgenerated, fun n conf => ?_⟩
  simp only [hshows.config n conf, ClusterConf.carries_iff, eq_comm]

/-- Whatever was called, the file of policies is within its bounds, and no cluster has a name with a
meaning of its own. -/
theorem run_policies (events : List Event) (defaultProduct : Option String) :
    (∃ f, Topic.clusterTable.generated defaultProduct (start.run events) = .ok f ∧
      ∀ n conf, f.config.get? n = some conf → conf.WithinBounds) ∧
    ∀ i r, (start.run events).clusters.get? i = some r →
      r.name ≠ "ADVANCED_MODE" ∧ r.name ≠ "GO_TO_ADVANCED_RULES" := by
  have hreachable : (start.run events).Reachable := ⟨events, rfl⟩
  constructor
  · obtain ⟨f, hgenerated, hentries⟩ := hreachable.consistent.carries_policies defaultProduct
    refine ⟨f, hgenerated, fun n conf hget => ?_⟩
    obtain ⟨i, r, hr, -, hcarries⟩ := (hentries n conf).1 hget
    rw [ClusterConf.carries_iff.1 hcarries]
    exact ClusterConf.withinBounds_ofRecord (hreachable.vetted i r hr)
  · intro i r hget
    have hname := (hreachable.vetted i r hget).unreserved
    constructor <;> intro heq <;> rw [heq] at hname <;> exact absurd hname (by decide)

end Store.Tables
end FleetControl
