import FleetControl.Proofs.Managers
import FleetControl.Proofs.Sessions
import FleetControl.Proofs.Statements
import FleetControl.Store.Database

/-!
What is said about clusters and their load matrices. Statements and requests are marked by it; the
statements of a request bear its mark and its verb, whatever the replies, so the marks of a session can be
read off what a unit of work asks of the store.
-/

namespace FleetControl

inductive Mark where
  | lock (id : Int)
  | write (id : Int)
  | read (id : Int)
  | look (id : Int)
  | birth
  | other
  deriving DecidableEq

namespace Sql

open Store.Database

inductive Phrase where
  | lock | write | matrix | mounted | look | birth
  deriving DecidableEq

namespace Phrase

def of? (text : String) : (arguments : Nat) → Option Phrase
  | 1 =>
    if text = "SELECT id FROM clusters WHERE id = $1 FOR UPDATE" then some lock
    else if text = "SELECT lb_matrix FROM lb_matrices WHERE cluster_id = $1" then some matrix
    else none
  | 3 =>
    if text = "INSERT INTO lb_matrices (cluster_id, product_id, lb_matrix) VALUES ($1, $2, $3) " ++
        "ON CONFLICT (cluster_id) DO UPDATE SET product_id = EXCLUDED.product_id, " ++
        "lb_matrix = EXCLUDED.lb_matrix, updated_at = CURRENT_TIMESTAMP" then some write
    else if text = "SELECT " ++ clusterColumns ++
        " FROM clusters WHERE ($1::BIGINT IS NULL OR id = $1) " ++
        "AND ($2::TEXT IS NULL OR name = $2) AND ($3::BIGINT IS NULL OR product_id = $3) " ++
        "ORDER BY name" then some look
    else none
  | 5 =>
    if text = "SELECT " ++ subClusterColumns ++
        " FROM sub_clusters WHERE ($1::BIGINT IS NULL OR id = $1) " ++
        "AND ($2::BIGINT IS NULL OR product_id = $2) AND ($3::TEXT[] IS NULL OR name = ANY($3)) " ++
        "AND ($4::BIGINT IS NULL OR cluster_id = $4) AND ($5::BIGINT IS NULL OR pool_id = $5) " ++
        "ORDER BY name" then some mounted
    else none
  | 6 =>
    if text = "INSERT INTO clusters (name, product_id, description, basic, sticky_sessions, " ++
        "passive_health_check) VALUES ($1, $2, $3, $4, $5, $6) RETURNING " ++ clusterColumns then
      some birth
    else none
  | _ => none

def mark : Phrase → List Arg → Mark
  | lock, [.int8 id] => .lock id
  | matrix, [.int8 id] => .read id
  | write, [.int8 id, _, _] => .write id
  | look, [.int8 id, _, _] => .look id
  | mounted, [_, _, _, .int8 id, _] => .read id
  | birth, _ => .birth
  | _, _ => .other

end Phrase

def Statement.mark (st : Statement) : Mark :=
  match Phrase.of? st.text st.args.length with
  | some phrase => phrase.mark st.args
  | none => .other

def Line.mark (l : Line) : Mark := l.statement.mark

def Line.id? (l : Line) : Option Int :=
  l.reply.bind fun reply => reply.toRows.head?.bind (·.column? "id")

theorem Statement.mark_phrase {text : String} {args : List Arg} (phrase : Phrase) (n : Nat)
    (h : Phrase.of? text n = some phrase) (hn : args.length = n) :
    Statement.mark ⟨text, args⟩ = phrase.mark args := by
  subst hn
  rw [Statement.mark, h]

theorem Statement.mark_other {text : String} {args : List Arg} (n : Nat)
    (h : Phrase.of? text n = none) (hn : args.length = n) :
    Statement.mark ⟨text, args⟩ = .other := by
  subst hn
  rw [Statement.mark, h]

theorem Statement.unmarked {text : String} {args : List Arg} (n : Nat) (v : Verb)
    (hmark : Phrase.of? text n = none) (hn : args.length = n) (hverb : Verb.ofText? text = some v) :
    Statement.mark ⟨text, args⟩ = .other ∧ Statement.verb? ⟨text, args⟩ = some v :=
  ⟨mark_other n hmark hn, verb?_eq v hverb⟩

end Sql

namespace Store

open Sql

def Request.mark : Request → Mark
  | lockCluster id => .lock id.val
  | putLoadMatrix id _ _ => .write id.val
  | fetchLoadMatrix id => .read id.val
  | fetchSubClusters f => f.clusterId.elim .other fun id => .read id.val
  | fetchClusters f => f.id.elim .other fun id => .look id.val
  | createCluster _ => .birth
  | _ => .other

theorem mark_of_fetches {r : Request} (hr : r.fetches = true) :
    (∀ j, r.mark ≠ .lock j) ∧ (∀ k, r.mark ≠ .write k) ∧ r.mark ≠ .birth := by
  cases r with
  | fetchSubClusters f => cases hf : f.clusterId <;> simp [Request.mark, hf]
  | fetchClusters f => cases hf : f.id <;> simp [Request.mark, hf]
  | _ => cases hr <;> simp [Request.mark]

theorem mark_ne_write {r : Request} (hr : r.putsMatrix = false) (k : Int) : r.mark ≠ .write k := by
  cases r with
  | fetchSubClusters f => cases hf : f.clusterId <;> simp [Request.mark, hf]
  | fetchClusters f => cases hf : f.id <;> simp [Request.mark, hf]
  | _ => cases hr <;> simp [Request.mark]

theorem mark_ne_lock {r : Request} (hr : ∀ id, r ≠ .lockCluster id) (j : Int) :
    r.mark ≠ .lock j := by
  cases r with
  | fetchSubClusters f => cases hf : f.clusterId <;> simp [Request.mark, hf]
  | fetchClusters f => cases hf : f.id <;> simp [Request.mark, hf]
  | lockCluster id => exact absurd rfl (hr id)
  | _ => simp [Request.mark]

namespace Database

variable {P : Statement → Prop} {st : Statement} {context : String}

theorem sends_onRow {kind : Kind} {resource : String} {id : Id kind}
    (h : st.isControl = false ∧ P st) : Sends P (onRow resource id context st) := by
  refine moves_bind (sends_execute context h) fun count => ?_
  split
  · exact moves_throw _
  · exact moves_pure _

theorem sends_insertBasicRule (product : ProductId) (position : Nat) (r : BasicRule) :
    Sends (fun st => st.mark = .other ∧ st.verb? = some .insert)
      (insertBasicRule product position r) :=
  sends_run _ ⟨rfl, Statement.unmarked 7 .insert rfl rfl (by decide +kernel)⟩

theorem sends_insertAdvancedRule (product : ProductId) (position : Nat) (r : AdvancedRule) :
    Sends (fun st => st.mark = .other ∧ st.verb? = some .insert)
      (insertAdvancedRule product position r) :=
  sends_run _ ⟨rfl, Statement.unmarked 7 .insert rfl rfl (by decide +kernel)⟩

theorem exchange_sends (r : Request) :
    Sends (fun st => st.mark = r.mark ∧ st.verb? = some r.verb) (exchange r) := by
  cases r with
  | lockCluster id =>
    refine moves_bind (sends_fetchOptional _ ⟨rfl, ?_⟩ _) fun row => ?_
    · exact ⟨Statement.mark_phrase .lock 1 (by decide +kernel) rfl,
        Statement.verb?_eq .select (by decide +kernel)⟩
    · split
      · exact moves_throw _
      · exact moves_pure _
  | putLoadMatrix id product matrix =>
    refine sends_run _ ⟨rfl, ?_⟩
    exact ⟨Statement.mark_phrase .write 3 (by decide +kernel) rfl,
      Statement.verb?_eq .insert (by decide +kernel)⟩
  | fetchLoadMatrix id =>
    refine moves_bind (sends_fetchOptional _ ⟨rfl, ?_⟩ _) fun raw => ?_
    · exact ⟨Statement.mark_phrase .matrix 1 (by decide +kernel) rfl,
        Statement.verb?_eq .select (by decide +kernel)⟩
    · cases raw with
      | none => exact moves_pure _
      | some text => exact moves_map _ (moves_liftExcept _)
  | fetchSubClusters f =>
    refine sends_fetchAll _ ⟨rfl, ?_, Statement.verb?_eq .select (by decide +kernel)⟩ _
    rw [Statement.mark_phrase .mounted 5 (by decide +kernel) rfl]
    obtain ⟨id, productId, names, clusterId, poolId⟩ := f
    cases clusterId <;> rfl
  | fetchClusters f =>
    refine sends_fetchAll _ ⟨rfl, ?_, Statement.verb?_eq .select (by decide +kernel)⟩ _
    rw [Statement.mark_phrase .look 3 (by decide +kernel) rfl]
    obtain ⟨id, name, productId⟩ := f
    cases id <;> rfl
  | createCluster draft =>
    refine sends_fetchOne _ ⟨rfl, ?_⟩ _
    exact ⟨Statement.mark_phrase .birth 6 (by decide +kernel) rfl,
      Statement.verb?_eq .insert (by decide +kernel)⟩
  | fetchPools f =>
    refine moves_bind (sends_fetchAll _ ⟨rfl, ?_⟩ _) fun rows => moves_liftExcept _
    exact Statement.unmarked 4 .select rfl rfl (by decide +kernel)
  | createPool draft =>
    refine moves_bind (sends_fetchOne _ ⟨rfl, ?_⟩ _) fun row => moves_liftExcept _
    exact Statement.unmarked 5 .insert (by decide +kernel) rfl (by decide +kernel)
  | bindSubClusters cluster ids =>
    refine moves_bind (sends_execute _ ⟨rfl, ?_⟩) fun count => ?_
    · exact Statement.unmarked 2 .update rfl rfl (by decide +kernel)
    · split
      · exact moves_throw _
      · exact moves_pure _
  | lockAdvancedRules product =>
    refine moves_bind (sends_fetchOptional _ ⟨rfl, ?_⟩ _) fun _ =>
      moves_bind (sends_fetchAll _ ⟨rfl, ?_⟩ _) fun _ => moves_pure ()
    · exact Statement.unmarked 1 .select (by decide +kernel) rfl (by decide +kernel)
    · exact Statement.unmarked 1 .select (by decide +kernel) rfl (by decide +kernel)
  | fetchRouteRules product =>
    refine moves_bind (sends_fetchAll _ ⟨rfl, ?_⟩ _) fun basic =>
      moves_bind (sends_fetchAll _ ⟨rfl, ?_⟩ _) fun advanced => moves_pure _
    · exact Statement.unmarked 1 .select (by decide +kernel) rfl (by decide +kernel)
    · exact Statement.unmarked 1 .select (by decide +kernel) rfl (by decide +kernel)
  | deleteRouteRules product =>
    refine moves_bind (sends_run _ ⟨rfl, ?_⟩) fun _ => sends_run _ ⟨rfl, ?_⟩
    · exact Statement.unmarked 1 .delete (by decide +kernel) rfl (by decide +kernel)
    · exact Statement.unmarked 1 .delete (by decide +kernel) rfl (by decide +kernel)
  | createRouteRules product rules =>
    refine moves_bind (moves_mapM (fun p => ?_) _) fun _ =>
      moves_bind (moves_mapM (fun p => ?_) _) fun _ => moves_pure ()
    · exact sends_insertBasicRule product p.1 p.2
    · exact sends_insertAdvancedRule product p.1 p.2
  | setDefaultCertificate id =>
    refine moves_bind (sends_run _ ⟨rfl, ?_⟩) fun _ => sends_onRow ⟨rfl, ?_⟩
    · exact Statement.unmarked 1 .update (by decide +kernel) rfl (by decide +kernel)
    · exact Statement.unmarked 1 .update (by decide +kernel) rfl (by decide +kernel)
  | fetchProducts | fetchBfeClusters | fetchDomains | fetchCertificates =>
    refine sends_fetchAll _ ⟨rfl, ?_⟩ _
    exact Statement.unmarked 2 .select rfl rfl (by decide +kernel)
  | versionHistory topic =>
    refine sends_fetchAll _ ⟨rfl, ?_⟩ _
    exact Statement.unmarked 1 .select (by decide +kernel) rfl (by decide +kernel)
  | latestVersion topic =>
    refine sends_fetchOptional _ ⟨rfl, ?_⟩ _
    exact Statement.unmarked 1 .select (by decide +kernel) rfl (by decide +kernel)
  | createProduct | createBfeCluster | createSubCluster | createDomain =>
    refine sends_fetchOne _ ⟨rfl, ?_⟩ _
    exact Statement.unmarked 4 .insert rfl rfl (by decide +kernel)
  | createCertificate =>
    refine sends_fetchOne _ ⟨rfl, ?_⟩ _
    exact Statement.unmarked 6 .insert (by decide +kernel) rfl (by decide +kernel)
  | updateProduct | updateCluster =>
    refine sends_onRow ⟨rfl, ?_⟩
    exact Statement.unmarked 5 .update (by decide +kernel) rfl (by decide +kernel)
  | updateSubCluster id revision =>
    refine sends_onRow ⟨rfl, ?_⟩
    exact Statement.unmarked 3 .update (by decide +kernel) rfl (by decide +kernel)
  | updatePoolInstances id instances =>
    refine sends_onRow ⟨rfl, ?_⟩
    exact Statement.unmarked 2 .update rfl rfl (by decide +kernel)
  | deleteProduct | deletePool | deleteBfeCluster | deleteSubCluster | deleteCluster
  | deleteDomain | deleteCertificate =>
    refine sends_onRow ⟨rfl, ?_⟩
    exact Statement.unmarked 1 .delete (by decide +kernel) rfl (by decide +kernel)
  | deleteLoadMatrix =>
    refine sends_run _ ⟨rfl, ?_⟩
    exact Statement.unmarked 1 .delete (by decide +kernel) rfl (by decide +kernel)
  | unbindSubClusters =>
    refine sends_run _ ⟨rfl, ?_⟩
    exact Statement.unmarked 1 .update (by decide +kernel) rfl (by decide +kernel)
  | lockTopic =>
    refine sends_run _ ⟨rfl, ?_⟩
    exact Statement.unmarked 1 .select (by decide +kernel) rfl (by decide +kernel)
  | appendVersion row =>
    refine sends_run _ ⟨rfl, ?_⟩
    exact Statement.unmarked 4 .insert rfl rfl (by decide +kernel)

theorem exchange_mark (r : Request) : Sends (·.mark = r.mark) (exchange r) :=
  (exchange_sends r).imp fun _ h => h.1

theorem exchange_verb (r : Request) : Sends (·.verb? = some r.verb) (exchange r) :=
  (exchange_sends r).imp fun _ h => h.2

/-! What the lines of three requests that end well say. -/

variable {s s' : Session}

theorem lockCluster_ok {id : ClusterId} {u : Unit}
    (h : exchange (.lockCluster id) s = (.ok u, s')) :
    ∃ st, st.mark = .lock id.val ∧ s' = s.told st := by
  obtain ⟨row, t, hfetch, hrest⟩ := ok_of_bind h
  obtain ⟨st, hst, rfl⟩ := fetchOptional_ok (P := (·.mark = .lock id.val))
    ⟨rfl, Statement.mark_phrase .lock 1 (by decide +kernel) rfl⟩ hfetch
  refine ⟨st, hst, ?_⟩
  cases row with
  | none => cases hrest
  | some r =>
    cases hrest
    rfl

theorem column?_of_cluster? {r : Row} {c : Cluster.Record} (h : cluster? r = some c) :
    r.column? "id" = some c.id.val := by
  simp only [cluster?, bind, pure, Option.bind_eq_some_iff] at h
  obtain ⟨id, hid, name, -, productId, -, description, -, basic, -, sticky, -, health, -, hc⟩ := h
  obtain rfl : id = c.id := by cases hc; rfl
  obtain ⟨cell, hcell, hid⟩ := Option.bind_eq_some_iff.1 hid
  obtain ⟨n, hn, hid⟩ := Option.map_eq_some_iff.1 hid
  rw [← hid]
  exact Option.bind_eq_some_iff.2 ⟨cell, hcell, hn⟩

theorem id?_of_heard {st : Statement} {c : Cluster.Record}
    (h : ∃ reply r, s.heard st = some reply ∧ reply.toRows.head? = some r ∧ cluster? r = some c) :
    Line.id? ⟨st, s.heard st⟩ = some c.id.val := by
  obtain ⟨reply, r, hheard, hrow, hread⟩ := h
  have hcolumn := column?_of_cluster? hread
  simpa [Line.id?, hheard, hrow] using hcolumn

theorem createCluster_ok {draft : Cluster.Draft} {c : Cluster.Record}
    (h : exchange (.createCluster draft) s = (.ok c, s')) :
    ∃ st, s' = s.told st ∧ st.mark = .birth ∧ Line.id? ⟨st, s.heard st⟩ = some c.id.val := by
  obtain ⟨st, hst, hs, hheard⟩ := fetchOne_ok (P := (·.mark = .birth))
    ⟨rfl, Statement.mark_phrase .birth 6 (by decide +kernel) rfl⟩ h
  exact ⟨st, hs, hst, id?_of_heard hheard⟩

theorem fetchClusters_ok {f : ClusterFilter} {id : ClusterId} {cs : List Cluster.Record}
    (hf : f.id = some id) (h : exchange (.fetchClusters f) s = (.ok cs, s')) :
    ∃ st, s' = s.told st ∧ st.mark = .look id.val ∧
      ∀ c ∈ cs.head?, Line.id? ⟨st, s.heard st⟩ = some c.id.val := by
  obtain ⟨_, name, productId⟩ := f
  obtain rfl := hf
  obtain ⟨st, hst, hs, hheard⟩ := fetchAll_ok (P := (·.mark = .look id.val))
    ⟨rfl, Statement.mark_phrase .look 3 (by decide +kernel) rfl⟩ h
  exact ⟨st, hs, hst, fun c hc => id?_of_heard (hheard c hc)⟩

/-! A whole transaction. -/

variable {α : Type} {Q : Mark → Prop}

theorem sends_begin (hQ : Q .other) : Sends (fun st => Q st.mark) begin :=
  sends_inContext _ (sends_control ⟨rfl, hQ⟩)

theorem sends_commit (hQ : Q .other) : Sends (fun st => Q st.mark) commit :=
  sends_inContext _ (sends_control ⟨rfl, hQ⟩)

theorem sends_work {P : Request → Prop} {S : Statement → Prop}
    (hP : ∀ r, P r → Sends S (exchange r)) {w : Work α} (hw : w.Only P) : Sends S (transact w) := by
  intro s
  refine hw.preserves (I := Session.Hears S s) (fun r t hr ht => ?_) (refl_of _ s)
  exact trans_of (Session.Hears S) ht (hP r hr t)

theorem sends_transact {w : Work α} (hw : w.Only fun r => Q r.mark) :
    Sends (fun st => Q st.mark) (transact w) := by
  refine sends_work (fun r hr => ?_) hw
  refine (exchange_mark r).imp fun st hst => ?_
  rw [hst]
  exact hr

/-- A transaction says what its requests say, and nothing else of clusters. -/
theorem sends_perform {op : Operation α} (hop : op.Asks fun r => Q r.mark) (hQ : Q .other) :
    Sends (fun st => Q st.mark) (perform op) := by
  cases op with
  | refuse f => exact moves_throw f
  | query w => exact moves_bind (sends_begin hQ) fun _ => sends_transact hop
  | update w =>
    refine moves_bind (sends_begin hQ) fun _ => moves_bind (sends_transact hop) fun a => ?_
    exact moves_bind (sends_commit hQ) fun _ => moves_pure a

end Database
end Store
end FleetControl
