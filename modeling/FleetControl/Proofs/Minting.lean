import FleetControl.Proofs.Transactions

/-!
What an export sends. It holds its topic before it reads anything, so of two exports of one topic the
second sees the row of the first; and it adds a row exactly if the content is new.
-/

namespace FleetControl.Export

open Store Store.Database Sql

def lockStatement (topic : String) : Statement :=
  ⟨"SELECT pg_advisory_xact_lock(hashtext($1))", [arg topic]⟩

def appendStatement (row : ConfigVersion) : Statement :=
  ⟨"INSERT INTO config_versions (topic, signature, version, created_at) " ++
    "VALUES ($1, $2, $3, $4)",
    [arg row.topic, arg row.signature, arg row.version, arg row.createdAt]⟩

variable {α : Type} [Versioned α] [Json.Encode α] {e : Exporter α} {now : Instant} {s s' : Session}

def Mints (now : Instant) (file : α) (latest : Option ConfigVersion) (version : String) : Prop :=
  (∀ last, latest = some last → last.signature ≠ signature file) ∧
    Version.mint now (latest.map (·.version)) = .ok version

def prepare (e : Exporter α) : Work (α × Option ConfigVersion) := do
  Work.ask (.lockTopic e.topic)
  let file ← e.generate
  let latest ← Work.ask (.latestVersion e.topic)
  return (file, latest)

def finish (now : Instant) (topic : String) (file : α) (latest : Option ConfigVersion) : Work α := do
  let version ← chooseVersion now topic (signature file) latest
  return Versioned.setVersion version file

def work (now : Instant) (e : Exporter α) : Work α := do
  Work.ask (.lockTopic e.topic)
  let file ← e.generate
  let latest ← Work.ask (.latestVersion e.topic)
  finish now e.topic file latest

theorem exportFile_eq (now : Instant) (e : Exporter α) : exportFile now e = .update (work now e) := rfl

theorem transact_work (now : Instant) (e : Exporter α) : transact (work now e) =
    transact (prepare e) >>= fun found => transact (finish now e.topic found.1 found.2) := by
  simp only [work, prepare, transact_bind, bind_assoc]
  rfl

omit [Versioned α] [Json.Encode α] in
theorem append_told (row : ConfigVersion) (file : α) (halive : s.alive = true) :
    (transact (Work.ask (.appendVersion row) >>= fun _ => pure file) s).2 =
        s.told (appendStatement row) ∧
      ∀ a, (transact (Work.ask (.appendVersion row) >>= fun _ => pure file) s).1 = .ok a →
        a = file := by
  rw [transact_bind, transact_ask]
  have hsent : (exchange (.appendVersion row) s).2 = s.told (appendStatement row) :=
    run_told _ halive rfl
  refine ⟨?_, fun a ha => ?_⟩
  · rw [← hsent]
    exact (rest_bind (R := Eq) (exchange (.appendVersion row)) (fun _ => moves_pure file) s).symm
  · rcases bind_cases (exchange (.appendVersion row)) (fun _ => transact (pure file)) s with
      ⟨u, t, -, hrun⟩ | ⟨f, t, -, hrun⟩ <;> rw [hrun] at ha <;> cases ha
    rfl

theorem finish_cases (now : Instant) (topic : String) (file : α) (latest : Option ConfigVersion)
    (halive : s.alive = true) :
    ((∀ version, ¬ Mints now file latest version) ∧ (transact (finish now topic file latest) s).2 = s) ∨
    ∃ version, Mints now file latest version ∧
      (transact (finish now topic file latest) s).2 =
        s.told (appendStatement ⟨topic, signature file, version, now⟩) ∧
      ∀ a, (transact (finish now topic file latest) s).1 = .ok a →
        a = Versioned.setVersion version file := by
  by_cases hfresh : ∀ last, latest = some last → last.signature ≠ signature file
  · rw [finish, chooseVersion_fresh hfresh, chooseVersion.mintRow]
    cases hmint : Version.mint now (latest.map (·.version)) with
    | error failure =>
      refine Or.inl ⟨fun version h => ?_, rfl⟩
      rw [h.2] at hmint
      cases hmint
    | ok version =>
      refine Or.inr ⟨version, ⟨hfresh, hmint⟩, ?_⟩
      exact append_told ⟨topic, signature file, version, now⟩ (Versioned.setVersion version file) halive
  · refine Or.inl ⟨fun version h => hfresh h.1, ?_⟩
    push Not at hfresh
    obtain ⟨last, rfl, hsame⟩ := hfresh
    rw [finish, chooseVersion_same hsame]
    rfl

omit [Versioned α] [Json.Encode α] in
theorem sends_prepare (hreads : e.generate.Only (·.fetches = true)) :
    Sends (·.verb? = some .select) (transact (prepare e)) := by
  apply sends_verb
  refine Work.only_bind (Work.only_ask rfl) fun _ => ?_
  refine Work.only_bind (hreads.imp fun r hr => verb_of_reads (allowsReads_reads r hr)) fun file => ?_
  exact Work.only_bind (Work.only_ask rfl) fun latest => Work.only_pure _

/-- An export holds its topic before it does anything else; it adds a row if and only if all went well
and the content is new, and the row has the version that the file has. -/
structure MintsUnderLock (now : Instant) (e : Exporter α) (s : Session)
    (out : Except Fault α × Session) : Prop where
  lockFirst : out.2.sent = [⟨"BEGIN", []⟩] ∧ "BEGIN" ∈ s.refused ∨
    ∃ more, out.2.sent = ⟨"BEGIN", []⟩ :: lockStatement e.topic :: more
  inserts_iff : (∃ st ∈ out.2.sent, st.verb? = some .insert) ↔ "BEGIN" ∉ s.refused ∧
    ∃ file latest s' version, transact (prepare e) (s.told ⟨"BEGIN", []⟩) = (.ok (file, latest), s') ∧
      Mints now file latest version
  inserted : "BEGIN" ∉ s.refused → ∀ file latest s' version,
    transact (prepare e) (s.told ⟨"BEGIN", []⟩) = (.ok (file, latest), s') →
    Mints now file latest version →
    (∀ st ∈ s'.sent, st.verb? ≠ some .insert) ∧
    (∃ more, more <+: [⟨"COMMIT", []⟩] ∧ out.2.sent =
      s'.sent ++ appendStatement ⟨e.topic, signature file, version, now⟩ :: more) ∧
    ∀ a, out.1 = .ok a → a = Versioned.setVersion version file

theorem work_minted {file : α} {latest : Option ConfigVersion} {version : String}
    (halive : s.alive = true) (hprepared : transact (prepare e) s = (.ok (file, latest), s'))
    (hmints : Mints now file latest version) :
    (transact (work now e) s).2 = s'.told (appendStatement ⟨e.topic, signature file, version, now⟩) ∧
      ∀ a, (transact (work now e) s).1 = .ok a → a = Versioned.setVersion version file := by
  have halive' : s'.alive = true := by
    have hsame := (sends_transact_verb (prepare e) s).same.1
    rw [hprepared] at hsame
    exact hsame.trans halive
  rw [transact_work, run_bind_ok hprepared]
  rcases finish_cases now e.topic file latest halive' with ⟨hnone, -⟩ | ⟨v, hv, hfinish⟩
  · exact absurd hmints (hnone version)
  · have hversion : v = version := by
      have hboth := hv.2.symm.trans hmints.2
      cases hboth
      rfl
    rw [← hversion]
    exact hfinish

theorem work_cases (now : Instant) (hreads : e.generate.Only (·.fetches = true))
    (halive : s.alive = true) :
    (∃ file latest s' version, transact (prepare e) s = (.ok (file, latest), s') ∧
      Mints now file latest version) ∨
    Session.Hears (·.verb? = some .select) s (transact (work now e) s).2 := by
  have hprepare := sends_prepare hreads s
  rw [transact_work]
  rcases hprepared : transact (prepare e) s with ⟨f | found, s'⟩
  · rw [hprepared] at hprepare
    rw [run_bind_error hprepared]
    exact Or.inr hprepare
  · rw [hprepared] at hprepare
    rw [run_bind_ok hprepared]
    have halive' : s'.alive = true := hprepare.same.1.trans halive
    rcases finish_cases now e.topic found.1 found.2 halive' with ⟨-, hstays⟩ | ⟨version, hmints, -⟩
    · rw [hstays]
      exact Or.inr hprepare
    · exact Or.inl ⟨found.1, found.2, s', version, rfl, hmints⟩

theorem work_locks (now : Instant) (e : Exporter α) (halive : s.alive = true) :
    ∃ more, (transact (work now e) s).2.sent = s.sent ++ lockStatement e.topic :: more := by
  have hlock : (exchange (.lockTopic e.topic) s).2 = s.told (lockStatement e.topic) :=
    run_told _ halive rfl
  rw [work, transact_bind, transact_ask]
  obtain ⟨more, hmore, -⟩ := (rest_bind (exchange (.lockTopic e.topic))
    (fun _ => sends_transact_verb (do
      let file ← e.generate
      let latest ← Work.ask (.latestVersion e.topic)
      finish now e.topic file latest)) s).sent
  refine ⟨more, ?_⟩
  rw [hlock] at hmore
  rw [hmore, Session.told, List.append_assoc]
  rfl

theorem verb?_appendStatement (row : ConfigVersion) :
    (appendStatement row).verb? = some .insert := Statement.verb?_eq .insert (by decide +kernel)

theorem not_insert_of_select {sts : List Statement} (h : ∀ st ∈ sts, st.verb? = some .select) :
    ∀ st ∈ ⟨"BEGIN", []⟩ :: sts, st.verb? ≠ some .insert := by
  intro st hst hinsert
  rcases List.mem_cons.1 hst with rfl | hst
  · rw [CommitsLast.verb?_begin] at hinsert
    cases hinsert
  · rw [h st hst] at hinsert
    cases hinsert

theorem exportFile_mintsUnderLock (now : Instant) (hreads : e.generate.Only (·.fetches = true))
    (replies : List Reply) (refused : List String) :
    MintsUnderLock now e (.start replies refused)
      (perform (exportFile now e) (.start replies refused)) := by
  rw [exportFile_eq]
  by_cases hrefused : "BEGIN" ∈ refused
  · rw [perform_unbegun rfl hrefused]
    refine ⟨Or.inl ⟨rfl, hrefused⟩, ⟨?_, fun h => absurd hrefused h.1⟩, fun h => absurd hrefused h⟩
    rintro ⟨st, hst, hinsert⟩
    exact absurd hinsert (not_insert_of_select (fun _ h => absurd h List.not_mem_nil) st hst)
  let opened := (Session.start replies refused).told ⟨"BEGIN", []⟩
  have hopen : opened.alive = true := rfl
  obtain ⟨⟨ending, hending, hsent⟩, hok⟩ :=
    perform_sent (w := work now e) (s := .start replies refused) rfl hrefused
  refine ⟨?_, ⟨?_, ?_⟩, ?_⟩
  · obtain ⟨more, hmore⟩ := work_locks now e hopen
    refine Or.inr ⟨more ++ ending, ?_⟩
    rw [hsent, hmore]
    rfl
  · rintro ⟨st, hst, hinsert⟩
    rcases work_cases now hreads hopen with hminted | hreads
    · exact ⟨hrefused, hminted⟩
    · obtain ⟨sts, hsts, hverbs⟩ := hreads.sent
      rw [hsent, hsts] at hst
      rcases List.mem_append.1 hst with hst | hst
      · exact absurd hinsert (not_insert_of_select hverbs st hst)
      · rw [List.mem_singleton.1 (hending.subset hst), CommitsLast.verb?_commit] at hinsert
        cases hinsert
  · rintro ⟨-, file, latest, s', version, hprepared, hmints⟩
    obtain ⟨hworked, -⟩ := work_minted hopen hprepared hmints
    refine ⟨appendStatement ⟨e.topic, signature file, version, now⟩, ?_, verb?_appendStatement _⟩
    rw [hsent, hworked, Session.told]
    simp
  · intro _ file latest s' version hprepared hmints
    obtain ⟨hworked, hresult⟩ := work_minted hopen hprepared hmints
    refine ⟨?_, ⟨ending, hending, ?_⟩, fun a ha => hresult a (hok a ha)⟩
    · obtain ⟨sts, hsts, hverbs⟩ := (sends_prepare hreads opened).sent
      rw [hprepared] at hsts
      rw [hsts]
      exact not_insert_of_select hverbs
    · rw [hsent, hworked, Session.told]
      simp

end FleetControl.Export
