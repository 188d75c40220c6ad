import FleetControl.Program.Run
import FleetControl.Proofs.Sessions
import FleetControl.Proofs.Validation

/-!
Commands that inspect the schema of a database. They ask for nothing but what has been applied; the
schema changes under them only if the settings have it migrated whenever a database is opened.
-/

namespace FleetControl

theorem Settings.isClean_of_refusal? {s : Settings} (hs : s.refusal? = none) :
    s.findings.isClean = true ∧ ¬ s.database.maxConnections < s.database.minConnections := by
  rw [← Findings.refusal?_eq_none]
  unfold Settings.refusal? at hs
  generalize s.findings.refusal? = refusal at hs ⊢
  cases refusal with
  | some f => simp at hs
  | none =>
    refine ⟨rfl, fun hless => ?_⟩
    dsimp only at hs
    rw [if_pos hless] at hs
    simp at hs

theorem Settings.refusal?_connection {s : Settings} (hs : s.refusal? = none)
    (hserver : s.database.isPostgresql = true) :
    Store.Connection.refusal? s.database = none := by
  obtain ⟨hclean, hconnections⟩ := Settings.isClean_of_refusal? hs
  have hurl : s.database.url ≠ "" := by
    intro hempty
    rw [DatabaseSettings.isPostgresql, hempty] at hserver
    exact absurd hserver (by decide)
  have hmax : s.database.maxConnections ≠ 0 := by
    intro hzero
    simp only [Settings.findings, DatabaseSettings.findings, Findings.isClean_append,
      Findings.isClean_inside, Findings.isClean_ofField, Validation.range_eq_none, hzero] at hclean
    obtain ⟨⟨⟨⟨⟨-, hlow, -⟩, -⟩, -⟩, -⟩, -⟩ := hclean
    exact absurd (hlow 1 rfl) (by decide)
  rw [Store.Connection.refusal?, if_neg hmax, if_neg hconnections, if_neg hurl, hserver]
  rfl

namespace Sql

def Statement.ChangesSchema (st : Statement) : Prop :=
  (∃ m ∈ Migration.all, st.text = m.script) ∨
    Text.occursIn "CREATE TABLE IF NOT EXISTS _switchyard_migrations".toList st.text.toList = true ∨
    Text.occursIn "INSERT INTO _switchyard_migrations".toList st.text.toList = true

theorem Statement.not_changesSchema {st : Statement}
    (hscript : st.text ≠ Migration.initialSchema.script)
    (hcreate : Text.occursIn "CREATE TABLE IF NOT EXISTS _switchyard_migrations".toList
      st.text.toList = false)
    (hinsert : Text.occursIn "INSERT INTO _switchyard_migrations".toList st.text.toList = false) :
    ¬ st.ChangesSchema := by
  rintro (⟨m, hm, htext⟩ | h | h)
  · rw [List.mem_singleton.1 hm] at htext
    exact hscript htext
  · rw [hcreate] at h
    cases h
  · rw [hinsert] at h
    cases h

end Sql

namespace Schema

open Sql

variable {α : Type} {P : Statement → Prop} {st : Statement}

theorem sends_fetchRecords (context : String) (read : Row → Option α)
    (h : st.isControl = false ∧ P st) : Sends P (fetchRecords context st read) := by
  refine moves_bind (sends_inContext context (moves_tryCatch ?_ fun e => ?_)) fun rows => ?_
  · exact moves_map _ (sends_send h)
  · split
    · split
      · exact moves_pure _
      · exact moves_throw _
    · exact moves_throw _
  · refine moves_mapM (fun r => ?_) rows
    split
    · exact moves_pure _
    · exact moves_throw _

/-! What looks at the schema leaves it alone. -/

theorem sends_checkConnection : Sends (¬ ·.ChangesSchema) checkConnection := by
  refine sends_fetchOne _ ⟨by decide +kernel, Statement.not_changesSchema ?_ ?_ ?_⟩ _
  · simp [Migration.initialSchema]
  · decide +kernel
  · decide +kernel

theorem sends_appliedVersions : Sends (¬ ·.ChangesSchema) appliedVersions := by
  refine sends_fetchRecords _ _ ⟨by decide +kernel, Statement.not_changesSchema ?_ ?_ ?_⟩
  · simp [Migration.initialSchema]
  · decide +kernel
  · decide +kernel

theorem sends_listApplied : Sends (¬ ·.ChangesSchema) listApplied := by
  refine sends_fetchRecords _ _ ⟨by decide +kernel, Statement.not_changesSchema ?_ ?_ ?_⟩
  · simp [Migration.initialSchema]
  · decide +kernel
  · decide +kernel

/-! A migration begins with the table of migrations, whatever is in it. -/

theorem sends_apply (timing : Timing) {m : Migration}
    (hm : Statement.isControl ⟨m.script, []⟩ = false) : Sends (fun _ => True) (apply timing m) := by
  refine moves_bind (sends_inContext _ (sends_control ⟨by decide, trivial⟩)) fun _ => ?_
  refine moves_bind (sends_run _ ⟨hm, trivial⟩) fun _ => ?_
  refine moves_bind (sends_run _ ⟨by simp [Statement.isControl], trivial⟩) fun _ => ?_
  exact sends_inContext _ (sends_control ⟨by decide, trivial⟩)

theorem sends_applyAll (timing : Timing) {ms : List Migration}
    (hms : ∀ m ∈ ms, Statement.isControl ⟨m.script, []⟩ = false) :
    Sends (fun _ => True) (applyAll timing ms) := by
  induction ms with
  | nil => exact moves_pure ()
  | cons m ms ih =>
    refine moves_bind (sends_apply timing (hms m List.mem_cons_self)) fun _ => ?_
    exact ih fun m' hm' => hms m' (List.mem_cons_of_mem m hm')

theorem isControl_script {m : Migration} (hm : m ∈ Migration.all) :
    Statement.isControl ⟨m.script, []⟩ = false := by
  rw [List.mem_singleton.1 hm]
  simp [Statement.isControl, Migration.initialSchema]

theorem migrate_changesSchema (timing : Timing) (replies : List Reply) (refused : List String) :
    ∃ st ∈ (migrate timing (Session.start replies refused)).2.sent, st.ChangesSchema := by
  obtain ⟨context, st, hcreate, hcontrol, hchanges⟩ : ∃ context st,
      createTable = Store.Database.run context st ∧ st.isControl = false ∧ st.ChangesSchema :=
    ⟨_, _, rfl, by decide +kernel, Or.inr (Or.inl (by decide +kernel))⟩
  have hfirst : (createTable (Session.start replies refused)).2.sent = [st] := by
    rw [hcreate, run_told context rfl hcontrol]
    rfl
  have hrest : Sends (fun _ => True)
      (appliedVersions >>= fun applied => applyAll timing (pendingOf applied)) := by
    refine moves_bind (sends_appliedVersions.imp fun _ _ => trivial) fun applied => ?_
    exact sends_applyAll timing fun m hm => isControl_script (List.mem_filter.1 hm).1
  obtain ⟨sts, hsent, -⟩ := (rest_bind createTable (fun _ => hrest) (.start replies refused)).sent
  refine ⟨st, ?_, hchanges⟩
  show st ∈ ((createTable >>= _) (Session.start replies refused)).2.sent
  rw [hsent, hfirst]
  exact List.mem_cons_self

end Schema

namespace Program

open Sql CommandLine

variable {α : Type} {P : Statement → Prop}

def SchemaTask.Inspects : SchemaTask → Prop
  | .migrate dryRun => dryRun = true
  | _ => True

def Progress.Hears (P : Statement → Prop) (p p' : Progress) : Prop := p.session.Hears P p'.session

instance : IsPreorder Progress (Progress.Hears P) where
  refl p := refl_of (Session.Hears P) p.session
  trans _ _ _ := trans_of (Session.Hears P)

theorem moves_say (line : String) : Moves (Progress.Hears P) (say line) :=
  fun p => refl_of (Session.Hears P) p.session

theorem moves_complain (message : String) :
    Moves (Progress.Hears P) (complain message : Run α) := moves_throw _

theorem moves_talk {x : Exchange Fault α} (hx : Sends P x) :
    Moves (Progress.Hears P) (talk x) := fun p => hx p.session

theorem moves_migrate (timing : Schema.Timing) :
    Moves (Progress.Hears (¬ ·.ChangesSchema)) (migrate timing true) := by
  refine moves_bind (moves_talk (moves_map _ Schema.sends_appliedVersions)) fun pending => ?_
  split
  · exact moves_say _
  · refine moves_bind (moves_say _) fun _ => ?_
    exact moves_forM (fun m => moves_say _) _

theorem moves_status : Moves (Progress.Hears (¬ ·.ChangesSchema)) status := by
  refine moves_bind (moves_talk Schema.sends_checkConnection) fun _ => ?_
  refine moves_bind (moves_talk (moves_map _ Schema.sends_appliedVersions)) fun version => ?_
  refine moves_bind (moves_say _) fun _ => ?_
  refine moves_bind (moves_talk (moves_map _ Schema.sends_appliedVersions)) fun current => ?_
  split
  · exact moves_say _
  · exact moves_complain _

theorem moves_list : Moves (Progress.Hears (¬ ·.ChangesSchema)) list := by
  refine moves_bind (moves_talk Schema.sends_listApplied) fun applied => ?_
  split
  · exact moves_say _
  · refine moves_bind (moves_say _) fun _ => ?_
    refine moves_bind (moves_say _) fun _ => ?_
    refine moves_bind (moves_say _) fun _ => ?_
    refine moves_bind (moves_say _) fun _ => ?_
    exact moves_forM (fun a => moves_say _) _

theorem moves_validate : Moves (Progress.Hears (¬ ·.ChangesSchema)) validate := by
  refine moves_bind (moves_say _) fun _ => ?_
  refine moves_bind (moves_talk (moves_map _ Schema.sends_appliedVersions)) fun current => ?_
  split
  · exact moves_say _
  · exact moves_complain _

theorem moves_inspection (timing : Schema.Timing) {task : SchemaTask} (htask : task.Inspects) :
    Moves (Progress.Hears (¬ ·.ChangesSchema)) (match task with
      | .migrate dryRun => migrate timing dryRun
      | .status => status
      | .list => list
      | .validate => validate) := by
  cases task with
  | migrate dryRun =>
    obtain rfl : dryRun = true := htask
    exact moves_migrate timing
  | status => exact moves_status
  | list => exact moves_list
  | validate => exact moves_validate

theorem DatabaseSettings.isMemory_of_isPostgresql {d : DatabaseSettings}
    (h : d.isPostgresql = true) : d.isMemory = false := by
  rw [DatabaseSettings.isMemory, decide_eq_false_iff_not]
  intro hurl
  rw [DatabaseSettings.isPostgresql, hurl] at h
  exact absurd h (by decide)

theorem session_connect (reads : String → Bool) (timing : Schema.Timing) {d : DatabaseSettings}
    (hopen : Store.Connection.refusal? d = none) (replies : List Reply) (refused : List String) :
    (Store.Connection.connect reads timing d (.start replies refused)).2 =
      if d.autoMigrate = true ∧ reads d.url = true then
        (Schema.migrate timing (.start replies refused)).2
      else .start replies refused := by
  unfold Store.Connection.connect Store.Connection.reach
  rw [hopen]
  cases reads d.url <;> cases d.autoMigrate <;> rfl

/-- An inspecting command changes the schema if and only if it is to be migrated on every opening and
the database can be opened. -/
theorem schemaTask_changes_iff (reads : String → Bool) (timing : Schema.Timing) {s : Settings}
    {task : SchemaTask} (hs : s.refusal? = none) (hserver : s.database.isPostgresql = true)
    (htask : task.Inspects) (replies : List Reply) (refused : List String) :
    (∀ st ∈ (schemaTask reads timing s.database task
        ⟨[], .start replies refused, none⟩).2.session.sent, ¬ st.ChangesSchema) ↔
      s.database.autoMigrate = false ∨ reads s.database.url = false := by
  have hmemory := DatabaseSettings.isMemory_of_isPostgresql hserver
  have htalk : schemaTask reads timing s.database task =
      talk (Store.Connection.connect reads timing s.database) >>= fun _ => match task with
        | .migrate dryRun => migrate timing dryRun
        | .status => status
        | .list => list
        | .validate => validate := by
    unfold schemaTask
    rw [hmemory]
    cases task <;> rfl
  rw [htalk]
  have hrest := rest_bind (talk (Store.Connection.connect reads timing s.database))
    (fun _ => moves_inspection timing htask) ⟨[], .start replies refused, none⟩
  obtain ⟨sts, hsent, hsts⟩ := hrest.sent
  rw [hsent]
  have hconnect : (talk (Store.Connection.connect reads timing s.database)
      ⟨[], .start replies refused, none⟩).2.session =
      if s.database.autoMigrate = true ∧ reads s.database.url = true then
        (Schema.migrate timing (.start replies refused)).2
      else .start replies refused :=
    session_connect reads timing (Settings.refusal?_connection hs hserver) replies refused
  rw [hconnect]
  by_cases hopened : s.database.autoMigrate = true ∧ reads s.database.url = true
  · rw [if_pos hopened]
    constructor
    · intro hnone
      obtain ⟨st, hst, hchanges⟩ := Schema.migrate_changesSchema timing replies refused
      exact absurd hchanges (hnone st (List.mem_append_left _ hst))
    · simp [hopened]
  · rw [if_neg hopened]
    have hshut : s.database.autoMigrate = false ∨ reads s.database.url = false := by
      rwa [Decidable.not_and_iff_or_not, Bool.not_eq_true, Bool.not_eq_true] at hopened
    exact ⟨fun _ => hshut, fun _ => hsts⟩

def unmanaged : Settings where
  database := { url := "postgres://localhost/fleet", autoMigrate := false }

theorem unmanaged_unchanged :
    unmanaged.refusal? = none ∧ unmanaged.database.isPostgresql = true ∧
      SchemaTask.Inspects (.migrate true) ∧
      ∀ st ∈ (schemaTask (fun _ => true) ⟨⟨0⟩, 0⟩ unmanaged.database (.migrate true)
        ⟨[], .start [.rows []] [], none⟩).2.session.sent, ¬ st.ChangesSchema := by
  have hs : unmanaged.refusal? = none := by decide +kernel
  have hserver : unmanaged.database.isPostgresql = true := by decide +kernel
  have htask : SchemaTask.Inspects (.migrate true) := rfl
  exact ⟨hs, hserver, htask,
    (schemaTask_changes_iff (fun _ => true) ⟨⟨0⟩, 0⟩ hs hserver htask [.rows []] []).2 (Or.inl rfl)⟩

def managed : Settings where
  database := { url := "postgres://localhost/fleet" }

/-- A server without any tables, which has one migration after it was sent one. -/
def emptyServer : List Reply :=
  [.affected 0, .rows [], .affected 0, .affected 1, .rows [[("version", .int8 20240601000001)]]]

/-- A dry run migrates the database, and then there is nothing pending for it to show. -/
theorem managed_migrated :
    managed.refusal? = none ∧ managed.database.isPostgresql = true ∧
      (schemaTask (fun _ => true) ⟨⟨0⟩, 0⟩ managed.database (.migrate true)
        ⟨[], .start emptyServer [], none⟩).2.printed = ["No pending migrations"] ∧
      ¬ ∀ st ∈ (schemaTask (fun _ => true) ⟨⟨0⟩, 0⟩ managed.database (.migrate true)
        ⟨[], .start emptyServer [], none⟩).2.session.sent, ¬ st.ChangesSchema := by
  refine ⟨by decide +kernel, by decide +kernel, by decide +kernel, ?_⟩
  intro hnone
  have hrecord : ((schemaTask (fun _ => true) ⟨⟨0⟩, 0⟩ managed.database (.migrate true)
      ⟨[], .start emptyServer [], none⟩).2.session.sent[4]?).map (·.text) =
        some ("INSERT INTO _switchyard_migrations (version, description, checksum, " ++
          "execution_time, installed_on) VALUES ($1, $2, $3, $4, $5)") := by decide +kernel
  obtain ⟨st, hst, htext⟩ := Option.map_eq_some_iff.1 hrecord
  refine hnone st (List.mem_of_getElem? hst) (Or.inr (Or.inr ?_))
  rw [htext]
  decide +kernel

end Program
end FleetControl
