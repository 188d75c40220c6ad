import FleetControl.Proofs.Commits
import FleetControl.Proofs.Marks

/-!
Transactions, as the server sees them. A unit of work opens one, says what it has to say, and commits
it as the very last thing if all went well; nothing else that is ever sent is a commit. So a server that
fails at any point, with any reply, is left with all of a change or with none of it.
-/

namespace FleetControl

namespace Store.Operation

variable {α : Type}

def queries : Operation α → Bool
  | query _ => true
  | refuse _ | update _ => false

theorem queries_guarded {refusal : Option Fault} {op : Operation α} (h : op.queries = false) :
    (op.guarded refusal).queries = false := by
  cases refusal with
  | none => exact h
  | some f => rfl

end Store.Operation

namespace Store.Database

open Sql

variable {α β : Type} {P : Request → Prop} {Q : Statement → Prop} {s s' : Session}

/-! Units of work, part by part. -/

theorem transact_bind (w : Work α) (k : α → Work β) :
    transact (w >>= k) = transact w >>= fun a => transact (k a) := by
  funext s
  have hrun := Work.run_bind answer w k s
  rcases hw : transact w s with ⟨f | a, s'⟩
  · rw [run_bind_error hw]
    change (w.bind k).run answer s = _
    rw [hrun]
    change w.run answer s = _ at hw
    rw [hw]
  · rw [run_bind_ok hw]
    change (w.bind k).run answer s = _
    rw [hrun]
    change w.run answer s = _ at hw
    rw [hw]
    rfl

theorem transact_ask (r : Request) : transact (Work.ask r) = exchange r := by
  funext s
  change (Work.step r Work.done).run answer s = answer r s
  rw [Work.run]
  rcases answer r s with ⟨f | x, s'⟩ <;> rfl

theorem transact_map (g : α → β) (w : Work α) :
    transact (w.bind fun a => .done (g a)) = g <$> transact w := by
  change transact (w >>= fun a => pure (g a)) = _
  rw [transact_bind, map_eq_pure_bind]
  rfl

theorem perform_map (g : α → β) (op : Operation α) : perform (op.map g) = g <$> perform op := by
  cases op with
  | refuse f => rfl
  | query w =>
    change (begin >>= fun _ => transact (w.bind fun a => .done (g a))) =
      g <$> (begin >>= fun _ => transact w)
    rw [transact_map, map_bind]
  | update w =>
    change (begin >>= fun _ => transact (w.bind fun a => .done (g a)) >>= fun b =>
      commit >>= fun _ => pure b) =
        g <$> (begin >>= fun _ => transact w >>= fun a => commit >>= fun _ => pure a)
    simp only [transact_map, map_bind, bind_map_left, map_pure]

theorem control_told {context name : String} (halive : s.alive = true)
    (hname : Statement.isControl ⟨name, []⟩ = true) :
    inContext context (Sql.control name) s =
      (if name ∈ s.refused then .error (.storage context) else .ok (), s.told ⟨name, []⟩) := by
  have hcontrol : Sql.control name s =
      (if name ∈ s.refused then .error .unusable else .ok (), s.told ⟨name, []⟩) := by
    unfold Sql.control Session.told
    rw [halive, hname]
    simp
  have hadapt : inContext context (Sql.control name) s =
      ((Sql.control name s).1.mapError fun _ => Fault.storage context, (Sql.control name s).2) := rfl
  rw [hadapt, hcontrol]
  split <;> rfl

theorem verb_of_reads {r : Request} (hr : r.reads = true) : r.verb = .select := by
  cases r <;> first | rfl | cases hr

theorem sends_verb {v : Verb} {w : Work α} (hw : w.Only (·.verb = v)) :
    Sends (·.verb? = some v) (transact w) := by
  refine sends_work (fun r hr => ?_) hw
  obtain rfl : r.verb = v := hr
  exact exchange_verb r

theorem sends_transact_verb (w : Work α) : Sends (·.verb? ≠ some .commit) (transact w) := by
  refine sends_work (P := fun _ => True) (fun r _ => ?_) (Work.only_of_forall (fun _ => trivial) w)
  refine (exchange_verb r).imp fun st hst => ?_
  rw [hst]
  exact fun h => verb_ne_commit r (Option.some.inj h)

/-! How an update goes: it is not begun, it fails on the way, or it comes to the commit. -/

section

variable {w : Work α} (halive : s.alive = true)

include halive

theorem perform_unbegun (hrefused : "BEGIN" ∈ s.refused) : perform (.update w) s =
    (.error (.storage "Failed to begin transaction"), s.told ⟨"BEGIN", []⟩) := by
  have hbegin : begin s = _ := control_told halive rfl
  rw [if_pos hrefused] at hbegin
  exact run_bind_error hbegin

theorem perform_begun (hbegun : "BEGIN" ∉ s.refused) : perform (.update w) s =
    (transact w >>= fun a => commit >>= fun _ => pure a) (s.told ⟨"BEGIN", []⟩) := by
  have hbegin : begin s = _ := control_told halive rfl
  rw [if_neg hbegun] at hbegin
  exact run_bind_ok hbegin

theorem perform_failed (hbegun : "BEGIN" ∉ s.refused) {f : Fault}
    (hw : transact w (s.told ⟨"BEGIN", []⟩) = (.error f, s')) :
    perform (.update w) s = (.error f, s') := by
  rw [perform_begun halive hbegun, run_bind_error hw]

theorem perform_ended (hbegun : "BEGIN" ∉ s.refused) {a : α}
    (hw : transact w (s.told ⟨"BEGIN", []⟩) = (.ok a, s')) :
    perform (.update w) s = (if "COMMIT" ∈ s.refused then
      .error (.storage "Failed to commit transaction") else .ok a, s'.told ⟨"COMMIT", []⟩) := by
  obtain ⟨hopen, hsame⟩ := (sends_transact_verb w (s.told ⟨"BEGIN", []⟩)).same
  rw [hw] at hopen hsame
  have hrefused : s'.refused = s.refused := hsame
  have hcommit : commit s' = _ := control_told (hopen.trans halive) rfl
  rw [hrefused] at hcommit
  rw [perform_begun halive hbegun, run_bind_ok hw]
  by_cases hlost : "COMMIT" ∈ s.refused
  · rw [if_pos hlost] at hcommit ⊢
    exact run_bind_error hcommit
  · rw [if_neg hlost] at hcommit ⊢
    exact run_bind_ok hcommit

theorem perform_sent (hbegun : "BEGIN" ∉ s.refused) :
    (∃ more, more <+: [⟨"COMMIT", []⟩] ∧ (perform (.update w) s).2.sent =
      (transact w (s.told ⟨"BEGIN", []⟩)).2.sent ++ more) ∧
    ∀ a, (perform (.update w) s).1 = .ok a → (transact w (s.told ⟨"BEGIN", []⟩)).1 = .ok a := by
  rcases hw : transact w (s.told ⟨"BEGIN", []⟩) with ⟨f | a, s'⟩
  · rw [perform_failed halive hbegun hw]
    exact ⟨⟨[], List.nil_prefix, by simp⟩, nofun⟩
  · rw [perform_ended halive hbegun hw]
    refine ⟨⟨_, List.prefix_rfl, rfl⟩, fun b hb => ?_⟩
    split at hb
    · cases hb
    · exact hb

end

def outcome (x : Exchange Fault α) (replies : List Reply) (refused : List String) :
    Except Fault Unit × List Statement :=
  ((x (.start replies refused)).1.map fun _ => (), (x (.start replies refused)).2.sent)

end Store.Database

namespace Store

open Sql

/-- Commits are sent once at most, as the last thing that is sent, and by what succeeds; a query sends
none, and no write either. -/
structure CommitsLast (query : Bool) (refused : List String)
    (out : Except Fault Unit × List Statement) : Prop where
  last : ∀ st ∈ out.2.dropLast, st.verb? ≠ some .commit
  ok_iff : query = false →
    (out.1 = .ok () ↔ out.2.getLast? = some ⟨"COMMIT", []⟩ ∧ "COMMIT" ∉ refused)
  failed : ∀ f, out.1 = .error f → (∃ st ∈ out.2, st.verb? = some .commit) →
    "COMMIT" ∈ refused ∧ f = .storage "Failed to commit transaction"
  queried : query = true → ∀ st ∈ out.2, st.verb? = some .begin ∨ st.verb? = some .select

namespace CommitsLast

variable {query : Bool} {refused : List String} {sent : List Statement}

theorem verb?_commit : Statement.verb? ⟨"COMMIT", []⟩ = some .commit := by decide +kernel

theorem verb?_begin : Statement.verb? ⟨"BEGIN", []⟩ = some .begin := by decide +kernel

theorem dropped {f : Fault} (hsent : ∀ st ∈ sent, st.verb? ≠ some .commit) :
    CommitsLast false refused (.error f, sent) where
  last st hst := hsent st (List.mem_of_mem_dropLast hst)
  ok_iff _ := by
    refine ⟨nofun, fun ⟨hlast, _⟩ => ?_⟩
    exact absurd verb?_commit (hsent _ (List.mem_of_getLast? hlast))
  failed _ _ h := by
    obtain ⟨st, hst, hcommit⟩ := h
    exact absurd hcommit (hsent st hst)
  queried := nofun

theorem committed {α : Type} (a : α) (hsent : ∀ st ∈ sent, st.verb? ≠ some .commit) :
    CommitsLast false refused (Except.map (fun _ => ()) (if "COMMIT" ∈ refused then
      .error (Fault.storage "Failed to commit transaction") else .ok a),
      sent ++ [⟨"COMMIT", []⟩]) where
  last st hst := by
    rw [List.dropLast_concat] at hst
    exact hsent st hst
  ok_iff _ := by
    by_cases hlost : "COMMIT" ∈ refused <;> simp [hlost, Except.map]
  failed f hf _ := by
    by_cases hlost : "COMMIT" ∈ refused
    · rw [if_pos hlost] at hf
      cases hf
      exact ⟨hlost, rfl⟩
    · rw [if_neg hlost] at hf
      cases hf
  queried := nofun

theorem of_query {out : Except Fault Unit × List Statement}
    (h : ∀ st ∈ out.2, st.verb? = some .begin ∨ st.verb? = some .select) :
    CommitsLast true refused out := by
  have hnone : ∀ st ∈ out.2, st.verb? ≠ some .commit := by
    intro st hst hcommit
    rcases h st hst with hv | hv <;> rw [hcommit] at hv <;> cases hv
  refine ⟨fun st hst => hnone st (List.mem_of_mem_dropLast hst), nofun, ?_, fun _ => h⟩
  rintro f - ⟨st, hst, hcommit⟩
  exact absurd hcommit (hnone st hst)

end CommitsLast

namespace Database

theorem update_commitsLast (w : Work α) (replies : List Reply) (refused : List String) :
    CommitsLast false refused (outcome (perform (.update w)) replies refused) := by
  obtain ⟨sts, hsts, hverbs⟩ :=
    ((sends_transact_verb w) ((Session.start replies refused).told ⟨"BEGIN", []⟩)).sent
  have hclean : ∀ st ∈ ⟨"BEGIN", []⟩ :: sts, st.verb? ≠ some .commit := by
    intro st hst
    rcases List.mem_cons.1 hst with rfl | hst
    · rw [CommitsLast.verb?_begin]
      nofun
    · exact hverbs st hst
  unfold outcome
  by_cases hbegun : "BEGIN" ∈ refused
  · rw [perform_unbegun rfl hbegun]
    refine CommitsLast.dropped fun st hst => hclean st ?_
    rw [List.mem_singleton.1 hst]
    exact List.mem_cons_self
  rcases hw : transact w ((Session.start replies refused).told ⟨"BEGIN", []⟩) with ⟨f | a, s'⟩
  · rw [hw] at hsts
    have hsent : s'.sent = ⟨"BEGIN", []⟩ :: sts := hsts
    rw [perform_failed rfl hbegun hw]
    exact CommitsLast.dropped (by rw [hsent]; exact hclean)
  · rw [hw] at hsts
    have hsent : s'.sent = ⟨"BEGIN", []⟩ :: sts := hsts
    rw [perform_ended rfl hbegun hw]
    change CommitsLast false refused (_, s'.sent ++ [⟨"COMMIT", []⟩])
    rw [hsent]
    exact CommitsLast.committed a hclean

theorem query_commitsLast {w : Work α} (hw : w.Only (·.reads = true)) (replies : List Reply)
    (refused : List String) :
    CommitsLast true refused (outcome (perform (.query w)) replies refused) := by
  have hbegin : Sends (fun st => st.verb? = some .begin ∨ st.verb? = some .select) begin :=
    sends_inContext _ (sends_control ⟨rfl, Or.inl CommitsLast.verb?_begin⟩)
  have hreads := sends_verb (hw.imp fun r => verb_of_reads)
  have hperform : Sends _ (perform (.query w)) :=
    moves_bind hbegin fun _ => hreads.imp fun _ => Or.inr
  obtain ⟨sts, hsts, hverbs⟩ := (hperform (.start replies refused)).sent
  apply CommitsLast.of_query
  intro st hst
  exact hverbs st (by rw [outcome, hsts] at hst; exact hst)

theorem commitsLast_of_queries {op : Operation α} (hop : op.queries = false) (replies : List Reply)
    (refused : List String) : CommitsLast false refused (outcome (perform op) replies refused) := by
  cases op with
  | refuse f => exact CommitsLast.dropped fun st hst => absurd hst List.not_mem_nil
  | query w => cases hop
  | update w => exact update_commitsLast w replies refused

end Database
end Store

namespace Call

open Store Store.Operation

theorem operation_update (settings : ControlSettings) (now : Instant) {c : Call}
    (hc : c.isQuery = false) : (c.operation settings now).queries = false := by
  have hexport : ∀ known last, (Export.exportKnown settings.defaultProduct now last known).queries =
      false := by
    intro known last
    cases known <;> rfl
  cases c with
  | createProduct | updateProduct | createBfeCluster | createPool | updatePoolInstances
  | createSubCluster | updateSubCluster | rebindSubClusters | createDomain | replaceRules
  | createCertificate =>
    exact queries_guarded rfl
  | updateCluster => exact queries_guarded (queries_guarded rfl)
  | createCluster =>
    exact queries_guarded (queries_guarded (queries_guarded (queries_guarded rfl)))
  | deleteProduct | deleteBfeCluster | deletePool | deleteSubCluster | deleteCluster | deleteDomain
  | setDefaultCertificate | deleteCertificate => rfl
  | exportTopic name last =>
    rw [operation, Export.exportTopic]
    split
    · exact hexport _ _
    · rfl
  | _ => cases hc

end Call

namespace Store

open Sql

def Event.outcome (replies : List Reply) (refused : List String) :
    Event → Except Fault Unit × List Statement
  | .call settings now c => Database.outcome (Database.perform (c.operation settings now)) replies refused
  | .publish now p =>
    Database.outcome (Database.perform (Export.exportFile now p.exporter)) replies refused

/-- Whatever is called or exported, and whatever the server replies, a commit is the last thing sent. -/
theorem Event.commitsLast (e : Event) (replies : List Reply) (refused : List String) :
    CommitsLast e.isQuery refused (e.outcome replies refused) := by
  cases e with
  | publish now p => exact Database.update_commitsLast _ replies refused
  | call settings now c =>
    change CommitsLast c.isQuery refused
      (Database.outcome (Database.perform (c.operation settings now)) replies refused)
    cases hc : c.isQuery with
    | true =>
      obtain ⟨w, hw, hreads⟩ := Call.operation_query settings now hc
      rw [hw]
      exact Database.query_commitsLast hreads replies refused
    | false =>
      exact Database.commitsLast_of_queries (Call.operation_update settings now hc) replies refused

end Store
end FleetControl
