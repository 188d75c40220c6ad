import FleetControl.Proofs.Inspection
import FleetControl.Proofs.Transactions

/-!
Runs of the migrations. A run sends a plan that depends on nothing but the versions the server
reports, and leaves it only at a statement that fails, which is then the last one. Every commit in the
plan comes right after the migration and its record, so nothing is committed of which a part failed.
-/

namespace FleetControl

namespace Sql

variable {α β : Type} {s : Session} {pass : Line → Prop} {sts sts' : List Statement}

namespace Session

def IsOpen (refused : List String) (s : Session) : Prop := s.alive = true ∧ s.refused = refused

theorem IsOpen.foldl_told {refused : List String} (h : s.IsOpen refused) (sts : List Statement) :
    (sts.foldl told s).IsOpen refused := by
  have hhears : s.Hears (fun _ => True) (sts.foldl told s) := ⟨sts, rfl, fun _ _ => trivial⟩
  exact ⟨hhears.same.1.trans h.1, hhears.same.2.trans h.2⟩

end Session

/-- What comes of an exchange that is to send the statements one after the other and answer `a`: it
goes through all of them, or fails with the first that does not pass and sends nothing after it. -/
inductive CarriesOut (pass : Line → Prop) (s : Session) (sts : List Statement) (a : α) :
    Except Fault α × Session → Prop where
  | through (passed : ∀ l ∈ s.dialogue sts, pass l) :
    CarriesOut pass s sts a (.ok a, sts.foldl Session.told s)
  | stopped {earlier later : List Statement} {st : Statement} {context : String}
    (planned : sts = earlier ++ st :: later) (passed : ∀ l ∈ s.dialogue earlier, pass l)
    (failed : ¬ pass ⟨st, (earlier.foldl Session.told s).heard st⟩) :
    CarriesOut pass s sts a (.error (.storage context), (earlier ++ [st]).foldl Session.told s)

theorem CarriesOut.one {a : α} {st : Statement} (h : pass ⟨st, s.heard st⟩) :
    CarriesOut pass s [st] a (.ok a, s.told st) := .through (by simpa [Session.dialogue] using h)

theorem CarriesOut.fails {a : α} {st : Statement} (context : String) (h : ¬ pass ⟨st, s.heard st⟩) :
    CarriesOut pass s [st] a (.error (.storage context), s.told st) :=
  .stopped (List.nil_append [st]).symm (fun _ hl => absurd hl List.not_mem_nil) h

theorem CarriesOut.bind {x : Exchange Fault α} {k : α → Exchange Fault β} {a : α} {b : β}
    (hx : CarriesOut pass s sts a (x s))
    (hk : CarriesOut pass (sts.foldl Session.told s) sts' b (k a (sts.foldl Session.told s))) :
    CarriesOut pass s (sts ++ sts') b ((x >>= k) s) := by
  generalize hr : x s = r at hx
  cases hx with
  | through passed =>
    rw [run_bind_ok hr]
    generalize k a (sts.foldl Session.told s) = r' at hk
    cases hk with
    | through passed' =>
      rw [← List.foldl_append]
      refine .through fun l hl => ?_
      rw [Session.dialogue_append] at hl
      exact (List.mem_append.1 hl).elim (passed l) (passed' l)
    | @stopped earlier later st context planned passed' failed =>
      rw [← List.foldl_append, ← List.append_assoc]
      have hplanned : sts ++ sts' = (sts ++ earlier) ++ st :: later := by
        rw [planned, List.append_assoc]
      refine .stopped hplanned (fun l hl => ?_) ?_
      · rw [Session.dialogue_append] at hl
        exact (List.mem_append.1 hl).elim (passed l) (passed' l)
      · rwa [List.foldl_append]
  | @stopped earlier later st context planned passed failed =>
    rw [run_bind_error hr]
    have hplanned : sts ++ sts' = earlier ++ st :: (later ++ sts') := by
      rw [planned, List.append_assoc, List.cons_append]
    exact .stopped hplanned passed failed

theorem dialogue_mono (h : sts <+: sts') : s.dialogue sts <+: s.dialogue sts' := by
  obtain ⟨more, rfl⟩ := h
  rw [Session.dialogue_append]
  exact List.prefix_append _ _

theorem CarriesOut.sent {a : α} {r : Except Fault α × Session} (h : CarriesOut pass s sts a r) :
    ∃ told, r.2 = told.foldl Session.told s ∧ told <+: sts ∧
      (∀ earlier l later, s.dialogue told = earlier ++ l :: later → ∀ l' ∈ earlier, pass l') ∧
      ((∀ l ∈ s.dialogue told, pass l) ∧ told = sts ∧ r.1 = .ok a ∨
        (∃ l ∈ s.dialogue told, ¬ pass l) ∧ ∃ context, r.1 = .error (.storage context)) := by
  cases h with
  | through passed =>
    refine ⟨sts, rfl, List.prefix_rfl, ?_, .inl ⟨passed, rfl, rfl⟩⟩
    intro earlier l later hlines l' hl'
    exact passed l' (hlines ▸ List.mem_append_left _ hl')
  | @stopped earlier later st context planned passed failed =>
    have hlines : s.dialogue (earlier ++ [st]) = s.dialogue earlier ++
        [⟨st, (earlier.foldl Session.told s).heard st⟩] := Session.dialogue_append s earlier [st]
    refine ⟨earlier ++ [st], rfl, ⟨later, by rw [planned]; simp⟩, ?_, .inr ⟨?_, context, rfl⟩⟩
    · intro before l after hsplit l' hl'
      rw [hlines] at hsplit
      have hlength := congrArg List.length hsplit
      simp only [List.length_append, List.length_cons, List.length_nil] at hlength
      have hbefore : before <+: s.dialogue earlier :=
        List.prefix_of_prefix_length_le ⟨_, hsplit.symm⟩ (List.prefix_append _ _) (by omega)
      exact passed l' (hbefore.subset hl')
    · rw [hlines]
      exact ⟨_, List.mem_append_right _ List.mem_cons_self, failed⟩

theorem adapt_error {ε δ : Type} {x : ExceptT ε (StateM Session) α} {e : ε} {t : Session} (f : ε → δ)
    (h : x s = (.error e, t)) : ExceptT.adapt f x s = (.error (f e), t) := by
  have hadapt : ExceptT.adapt f x s = ((x s).1.mapError f, (x s).2) := rfl
  rw [hadapt, h]
  rfl

section

variable {st : Statement} (halive : s.alive = true) (hst : st.isControl = false)

include halive hst

theorem send_eq : send st s = (match s.heard st with
    | some (.error message) => .error (.server message)
    | some reply => .ok reply
    | none => .error .unusable, s.told st) := by
  obtain ⟨alive, replies, refused, sent⟩ := s
  obtain rfl : alive = true := halive
  rw [Session.heard, Session.told, hst]
  rcases replies with _ | ⟨rows | count | message, rest⟩ <;> rfl

theorem run_eq (context : String) : Store.Database.run context st s = (match s.heard st with
    | some (.error _) | none => .error (.storage context)
    | some _ => .ok (), s.told st) := by
  have hsend := send_eq halive hst
  have hrun : Store.Database.run context st s = (match (send st s).1 with
      | .ok _ => .ok ()
      | .error _ => .error (.storage context), (send st s).2) := by
    rcases h : send st s with ⟨e | reply, t⟩
    · have hcount : (send st >>= fun reply => pure reply.count) s = (.error e, t) :=
        run_bind_error h
      have hexecute : execute context st s = (.error (.storage context), t) := adapt_error _ hcount
      exact run_bind_error hexecute
    · have hcount : (send st >>= fun reply => pure reply.count) s = (.ok reply.count, t) :=
        run_bind_ok h
      have hexecute : execute context st s = (.ok reply.count, t) := adapt_ok _ hcount
      exact run_bind_ok hexecute
  rw [hrun, hsend]
  rcases s.heard st with _ | (rows | count | message) <;> rfl

end

end Sql

namespace Schema

open Sql

/-! The plan. -/

def creating : Statement :=
  ⟨"CREATE TABLE IF NOT EXISTS _switchyard_migrations ( version BIGINT PRIMARY KEY, " ++
    "description TEXT NOT NULL, checksum BYTEA NOT NULL, execution_time BIGINT NOT NULL, " ++
    "installed_on TIMESTAMPTZ NOT NULL DEFAULT CURRENT_TIMESTAMP )", []⟩

def reading : Statement := ⟨"SELECT version FROM _switchyard_migrations ORDER BY version", []⟩

def opening : Statement := ⟨"BEGIN", []⟩

def running (m : Migration) : Statement := ⟨m.script, []⟩

def recording (timing : Timing) (m : Migration) : Statement :=
  ⟨"INSERT INTO _switchyard_migrations (version, description, checksum, execution_time, " ++
    "installed_on) VALUES ($1, $2, $3, $4, $5)",
    [.int8 m.version, .text m.name, .bytes (Sha256.digest m.script.toUTF8.toList),
      .int8 timing.elapsed, .time timing.now]⟩

def closing : Statement := ⟨"COMMIT", []⟩

def transaction (timing : Timing) (m : Migration) : List Statement :=
  [opening, running m, recording timing m, closing]

def plan (timing : Timing) (applied : List Int) : List Statement :=
  creating :: reading ::
    (Migration.all.filter fun m => m.version ∉ applied).flatMap (transaction timing)

def reported : Option Reply → List Int
  | some (.rows rows) => rows.filterMap version?
  | _ => []

/-- What lets a run go on after a statement: it was carried out, or it asked for the versions and
there is no table of them. -/
def Passes (refused : List String) (l : Line) : Prop :=
  if l.statement.isControl then l.statement.text ∉ refused
  else match l.reply with
    | some (.error message) => l.statement = reading ∧ isMissingTable message = true
    | some _ => True
    | none => False

/-! What each part of a run sends. -/

variable {s : Session} {st : Statement} {timing : Timing} {refused : List String}

theorem passes_reply (refused : List String) (reply : Option Reply)
    (hst : st.isControl = false) : Passes refused ⟨st, reply⟩ ↔ match reply with
      | some (.error message) => st = reading ∧ isMissingTable message = true
      | some _ => True
      | none => False := by
  rw [Passes, hst, if_neg Bool.false_ne_true]

theorem carriesOut_run (context : String) (hopen : s.IsOpen refused) (hst : st.isControl = false)
    (hother : st ≠ reading) :
    CarriesOut (Passes refused) s [st] () (Store.Database.run context st s) := by
  have hpasses := passes_reply refused (s.heard st) hst
  rw [run_eq hopen.1 hst]
  rcases hheard : s.heard st with _ | (rows | count | message) <;> rw [hheard] at hpasses
  · exact .fails context (by rw [hheard, hpasses]; exact id)
  · exact .one (by rw [hheard, hpasses]; trivial)
  · exact .one (by rw [hheard, hpasses]; trivial)
  · exact .fails context (by rw [hheard, hpasses]; exact fun h => hother h.1)

theorem carriesOut_control (context name : String) (hopen : s.IsOpen refused)
    (hst : Statement.isControl ⟨name, []⟩ = true) :
    CarriesOut (Passes refused) s [⟨name, []⟩] () (inContext context (control name) s) := by
  have hpasses : Passes refused ⟨⟨name, []⟩, s.heard ⟨name, []⟩⟩ ↔ name ∉ refused := by
    rw [Passes, if_pos hst]
  rw [Store.Database.control_told hopen.1 hst, hopen.2]
  split
  · exact .fails context (by rw [hpasses]; exact fun h => h ‹_›)
  · exact .one (by rw [hpasses]; assumption)

theorem isControl_creating : creating.isControl = false := by decide +kernel

theorem isControl_reading : reading.isControl = false := by decide +kernel

theorem isControl_recording (timing : Timing) (m : Migration) :
    (recording timing m).isControl = false := rfl

theorem recording_ne_reading (timing : Timing) (m : Migration) : recording timing m ≠ reading := by
  intro h
  have hargs : [] = (recording timing m).args := congrArg Statement.args h.symm
  exact List.cons_ne_nil _ _ hargs.symm

def IsScript (m : Migration) : Prop := (running m).isControl = false ∧ running m ≠ reading

theorem isScript_of_mem {m : Migration} (hm : m ∈ Migration.all) : IsScript m := by
  refine ⟨isControl_script hm, fun h => ?_⟩
  rw [List.mem_singleton.1 hm] at h
  have htext := congrArg Statement.text h
  simp [running, reading, Migration.initialSchema] at htext

theorem carriesOut_apply (hopen : s.IsOpen refused) {m : Migration} (hm : IsScript m) :
    CarriesOut (Passes refused) s (transaction timing m) () (apply timing m s) := by
  have hopened := hopen.foldl_told [opening]
  have hran := hopened.foldl_told [running m]
  have hrecorded := hran.foldl_told [recording timing m]
  refine (carriesOut_control _ "BEGIN" hopen rfl).bind ?_
  refine (carriesOut_run _ hopened hm.1 hm.2).bind ?_
  refine (carriesOut_run _ hran (isControl_recording timing m) (recording_ne_reading timing m)).bind ?_
  exact carriesOut_control _ "COMMIT" hrecorded rfl

theorem carriesOut_applyAll {ms : List Migration} (hopen : s.IsOpen refused)
    (hms : ∀ m ∈ ms, IsScript m) :
    CarriesOut (Passes refused) s (ms.flatMap (transaction timing)) () (applyAll timing ms s) := by
  induction ms generalizing s with
  | nil => exact .through fun _ h => absurd h List.not_mem_nil
  | cons m ms ih =>
    rw [List.flatMap_cons]
    refine CarriesOut.bind (carriesOut_apply hopen (hms m List.mem_cons_self)) ?_
    exact ih (hopen.foldl_told _) fun m' hm' => hms m' (List.mem_cons_of_mem m hm')

/-! The versions. -/

def Legible (reply : Option Reply) : Prop :=
  ∀ rows, reply = some (.rows rows) → ∀ r ∈ rows, ∃ v : Int, r.column? "version" = some v

theorem mapM_version {rows : List Row} {f : Row → Exchange Fault Int}
    (h : ∀ r ∈ rows, ∃ v, version? r = some v ∧ f r = pure v) (s : Session) :
    rows.mapM f s = (.ok (rows.filterMap version?), s) := by
  induction rows with
  | nil => rfl
  | cons r rows ih =>
    obtain ⟨v, hv, hr⟩ := h r List.mem_cons_self
    have hrest := ih fun r' hr' => h r' (List.mem_cons_of_mem r hr')
    have hfirst : f r s = (.ok v, s) := by
      rw [hr]
      rfl
    rw [List.mapM_cons, List.filterMap_cons_some hv, run_bind_ok hfirst]
    exact run_bind_ok hrest

theorem rows_eq (context : String) (halive : s.alive = true) (hst : st.isControl = false) :
    inContext context (tryCatch (Reply.toRows <$> send st) fun
      | .server message => if isMissingTable message then pure [] else throw (.server message)
      | e => throw e) s =
    (match s.heard st with
      | some (.error message) =>
        if isMissingTable message then .ok [] else .error (.storage context)
      | some reply => .ok reply.toRows
      | none => .error (.storage context), s.told st) := by
  obtain ⟨alive, replies, refused, sent⟩ := s
  obtain rfl : alive = true := halive
  rw [Session.heard, Session.told, hst]
  rcases replies with _ | ⟨rows | count | message, rest⟩
  · rfl
  · rfl
  · rfl
  · show inContext context (if isMissingTable message then pure [] else
      throw (Failure.server message)) ⟨true, rest, refused, sent ++ [st]⟩ =
        (if isMissingTable message then .ok [] else .error (.storage context),
          ⟨true, rest, refused, sent ++ [st]⟩)
    split <;> rfl

theorem carriesOut_appliedVersions (hopen : s.IsOpen refused) (hlegible : Legible (s.heard reading)) :
    CarriesOut (Passes refused) s [reading] (reported (s.heard reading)) (appliedVersions s) := by
  have hpasses := passes_reply refused (s.heard reading) isControl_reading
  have hrows := rows_eq "Failed to get applied migrations" hopen.1 isControl_reading
  rcases hheard : s.heard reading with _ | (rows | count | message) <;>
    rw [hheard] at hpasses hrows
  · have hrun : appliedVersions s = _ := run_bind_error hrows
    rw [hrun]
    exact .fails _ (by rw [hheard, hpasses]; exact id)
  · have hrun : appliedVersions s = _ := run_bind_ok hrows
    rw [hrun, Reply.toRows, mapM_version]
    · exact .one (by rw [hheard, hpasses]; trivial)
    · intro r hr
      obtain ⟨v, hv⟩ := hlegible rows hheard r hr
      have hread : version? r = some v := hv
      exact ⟨v, hread, by rw [hread]⟩
  · have hrun : appliedVersions s = _ := run_bind_ok hrows
    rw [hrun]
    exact .one (by rw [hheard, hpasses]; trivial)
  · cases hmissing : isMissingTable message with
    | true =>
      simp only [hmissing, if_true] at hrows
      have hrun : appliedVersions s = _ := run_bind_ok hrows
      rw [hrun]
      exact .one (by rw [hheard, hpasses]; exact ⟨rfl, hmissing⟩)
    | false =>
      simp only [hmissing, Bool.false_eq_true, if_false] at hrows
      have hrun : appliedVersions s = _ := run_bind_error hrows
      rw [hrun]
      refine .fails _ ?_
      rw [hheard, hpasses]
      intro h
      rw [h.2] at hmissing
      cases hmissing

theorem carriesOut_migrate (timing : Timing) (hopen : s.IsOpen refused)
    (hlegible : Legible ((s.told creating).heard reading)) :
    CarriesOut (Passes refused) s (plan timing (reported ((s.told creating).heard reading))) ()
      (migrate timing s) := by
  have hcreated := hopen.foldl_told [creating]
  have hread := hcreated.foldl_told [reading]
  have hother : creating ≠ reading := by
    intro h
    exact absurd (congrArg Statement.text h) (by decide +kernel)
  have hpending : (Migration.all.filter fun m =>
      m.version ∉ reported ((s.told creating).heard reading)) =
        pendingOf (reported ((s.told creating).heard reading)) := by simp [pendingOf]
  rw [plan, hpending]
  refine (carriesOut_run _ hopen isControl_creating hother).bind
    ((carriesOut_appliedVersions hcreated hlegible).bind ?_)
  exact carriesOut_applyAll hread fun m hm => isScript_of_mem (List.mem_filter.1 hm).1

/-! Commits. -/

theorem closing_ne_recording (timing : Timing) (m : Migration) : recording timing m ≠ closing := by
  intro h
  have hargs : (recording timing m).args = [] := congrArg Statement.args h
  exact List.cons_ne_nil _ _ hargs

theorem closing_ne_running {m : Migration} (hm : IsScript m) : running m ≠ closing := by
  intro h
  have hcontrol := hm.1
  rw [h] at hcontrol
  exact absurd hcontrol (by decide)

theorem before_closing {ms : List Migration} (hms : ∀ m ∈ ms, IsScript m)
    {before after : List Statement}
    (h : ms.flatMap (transaction timing) = before ++ closing :: after) :
    ∃ m ∈ ms, ∃ start, before = start ++ [opening, running m, recording timing m] := by
  induction ms generalizing before with
  | nil => cases before <;> cases h
  | cons m ms ih =>
    have hm := hms m List.mem_cons_self
    rw [List.flatMap_cons, transaction] at h
    -- The first commit is the one of `m`; any other one is further on.
    rcases before with _ | ⟨a, _ | ⟨b, _ | ⟨c, _ | ⟨d, before⟩⟩⟩⟩ <;>
      simp only [List.cons_append, List.nil_append, List.cons.injEq] at h
    · exact absurd (congrArg Statement.text h.1) (by decide)
    · exact absurd h.2.1 (closing_ne_running hm)
    · exact absurd h.2.2.1 (closing_ne_recording timing m)
    · obtain ⟨rfl, rfl, rfl, -⟩ := h
      exact ⟨m, List.mem_cons_self, [], rfl⟩
    · obtain ⟨rfl, rfl, rfl, rfl, h⟩ := h
      obtain ⟨m', hm', start, rfl⟩ := ih (fun m' hm' => hms m' (List.mem_cons_of_mem m hm')) h
      exact ⟨m', List.mem_cons_of_mem m hm', _ :: _ :: _ :: _ :: start, rfl⟩

theorem closing_of_plan {applied : List Int} {before after : List Statement}
    (h : plan timing applied = before ++ closing :: after) :
    ∃ m ∈ Migration.all, m.version ∉ applied ∧
      ∃ start, before = start ++ [opening, running m, recording timing m] := by
  have hcreating : creating ≠ closing := by
    intro heq
    exact absurd (congrArg Statement.text heq) (by decide +kernel)
  have hreading : reading ≠ closing := by
    intro heq
    exact absurd (congrArg Statement.text heq) (by decide +kernel)
  rw [plan] at h
  rcases before with _ | ⟨a, _ | ⟨b, before⟩⟩ <;>
    simp only [List.cons_append, List.nil_append, List.cons.injEq] at h
  · exact absurd h.1 hcreating
  · exact absurd h.2.1 hreading
  · obtain ⟨m, hm, start, rfl⟩ :=
      before_closing (fun m hm => isScript_of_mem (List.mem_filter.1 hm).1) h.2.2
    obtain ⟨hmem, happlied⟩ := List.mem_filter.1 hm
    exact ⟨m, hmem, of_decide_eq_true happlied, a :: b :: start, rfl⟩

/-! The run. -/

/-- How a run goes by the replies of the server. -/
structure Orderly (timing : Timing) (replies : List Reply) (refused : List String)
    (result : Except Fault Unit) (sent : List Statement) : Prop where
  planned : sent <+: plan timing (reported replies[1]?)
  completes : (∀ l ∈ (Session.start replies refused).dialogue sent, Passes refused l) →
    sent = plan timing (reported replies[1]?) ∧ result = .ok ()
  stops : ∀ earlier l later, (Session.start replies refused).dialogue sent = earlier ++ l :: later →
    ¬ Passes refused l → later = [] ∧ ∃ context, result = .error (.storage context)
  /-- A commit follows a migration that was not applied and its record, and nothing failed so far. -/
  commits : ∀ before after, sent = before ++ closing :: after →
    (∃ m ∈ Migration.all, m.version ∉ reported replies[1]? ∧
      ∃ start, before = start ++ [opening, running m, recording timing m]) ∧
    ∀ l ∈ (Session.start replies refused).dialogue before, Passes refused l
  /-- A database that has been through all migrations is only asked for them. -/
  repeats : ∀ first rows rest, replies = first :: .rows rows :: rest →
    (∀ message, first ≠ .error message) →
    (∀ m ∈ Migration.all, m.version ∈ rows.filterMap version?) →
    sent = [creating, reading] ∧ result = .ok ()

theorem plan_of_applied {applied : List Int} (h : ∀ m ∈ Migration.all, m.version ∈ applied) :
    plan timing applied = [creating, reading] := by
  have hnone : (Migration.all.filter fun m => m.version ∉ applied) = [] :=
    List.filter_eq_nil_iff.2 fun m hm => by simpa using h m hm
  rw [plan, hnone, List.flatMap_nil]

/-- Whatever the server replies, a run of the migrations is orderly. -/
theorem migrate_orderly (timing : Timing) {replies : List Reply} (refused : List String)
    (hlegible : Legible replies[1]?) :
    Orderly timing replies refused (migrate timing (.start replies refused)).1
      (migrate timing (.start replies refused)).2.sent := by
  have hheard : ((Session.start replies refused).told creating).heard reading = replies[1]? := by
    rw [Session.heard, isControl_reading, Session.told, isControl_creating]
    rcases replies with _ | ⟨first, _ | ⟨second, rest⟩⟩ <;> rfl
  have hopen : (Session.start replies refused).IsOpen refused := ⟨rfl, rfl⟩
  have hrun := carriesOut_migrate timing hopen (hheard.symm ▸ hlegible)
  rw [hheard] at hrun
  obtain ⟨told, hsession, hprefix, hbefore, hend⟩ := hrun.sent
  have hsent : (migrate timing (.start replies refused)).2.sent = told := by
    rw [hsession, Session.sent_foldl_told]
    rfl
  rw [hsent]
  constructor
  · exact hprefix
  · intro hpassed
    obtain ⟨-, hall, hok⟩ | ⟨⟨l, hl, hfailed⟩, -⟩ := hend
    · exact ⟨hall, hok⟩
    · exact absurd (hpassed l hl) hfailed
  · intro earlier l later hlines hfailed
    have hmem : l ∈ (Session.start replies refused).dialogue told := by simp [hlines]
    obtain ⟨hpassed, -⟩ | ⟨-, hstorage⟩ := hend
    · exact absurd (hpassed l hmem) hfailed
    · cases later with
      | nil => exact ⟨rfl, hstorage⟩
      | cons next later =>
        have hpassed := hbefore (earlier ++ [l]) next later (by simp [hlines]) l (by simp)
        exact absurd hpassed hfailed
  · intro before after hsplit
    obtain ⟨more, hplan⟩ := hprefix
    rw [hsplit, List.append_assoc, List.cons_append] at hplan
    refine ⟨closing_of_plan hplan.symm, ?_⟩
    rw [hsplit, Session.dialogue_append] at hbefore
    exact hbefore _ _ _ rfl
  · rintro first rows rest rfl hfirst hall
    have hreported : reported (first :: .rows rows :: rest)[1]? = rows.filterMap version? := rfl
    rw [hreported, plan_of_applied hall] at hprefix hend
    have hlines : (Session.start (first :: .rows rows :: rest) refused).dialogue
        [creating, reading] = [⟨creating, some first⟩, ⟨reading, some (.rows rows)⟩] := by
      simp [Session.dialogue, Session.heard, Session.told, Session.start, isControl_creating,
        isControl_reading]
    have hpassed : ∀ l ∈ (Session.start (first :: .rows rows :: rest) refused).dialogue told,
        Passes refused l := by
      intro l hl
      have hmem := (dialogue_mono hprefix).subset hl
      rw [hlines, List.mem_cons, List.mem_singleton] at hmem
      rcases hmem with rfl | rfl
      · rw [passes_reply _ _ isControl_creating]
        rcases first with rows | count | message
        · trivial
        · trivial
        · exact absurd rfl (hfirst message)
      · rw [passes_reply _ _ isControl_reading]
        trivial
    obtain ⟨-, hboth, hok⟩ | ⟨⟨l, hl, hfailed⟩, -⟩ := hend
    · exact ⟨hboth, hok⟩
    · exact absurd (hpassed l hl) hfailed

/-- A database without the table, whose disk is full when the first migration is recorded. -/
def fullDisk : List Reply :=
  [.affected 0, .error "relation \"_switchyard_migrations\" does not exist", .affected 0,
    .error "No space left on device"]

theorem fullDisk_orderly :
    Legible fullDisk[1]? ∧ reported fullDisk[1]? = [] ∧
      (migrate ⟨⟨0⟩, 0⟩ (.start fullDisk [])).1 =
        .error (.storage "Failed to record migration: 20240601000001_initial_schema") ∧
      (migrate ⟨⟨0⟩, 0⟩ (.start fullDisk [])).2.sent = [creating, reading, opening,
        running .initialSchema, recording ⟨⟨0⟩, 0⟩ .initialSchema] := by
  have hlegible : Legible fullDisk[1]? := by
    intro rows hrows
    cases hrows
  have hplanned := (migrate_orderly ⟨⟨0⟩, 0⟩ [] hlegible).planned
  have hlength : (migrate ⟨⟨0⟩, 0⟩ (.start fullDisk [])).2.sent.length = 5 := by decide +kernel
  refine ⟨hlegible, rfl, by decide +kernel, ?_⟩
  rw [List.prefix_iff_eq_take.1 hplanned, hlength]
  rfl

end Schema
end FleetControl
