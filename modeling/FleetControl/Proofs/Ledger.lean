import FleetControl.Proofs.Isolation
import FleetControl.Proofs.Version
import Mathlib.Data.List.Chain

/-!
The discipline of the ledger. The versions of a topic rise along the ledger whatever the clock does,
and a new row of a topic always stands for other content than the row before. The invariant of a run
bounds the versions by the greatest stamp and the number of exports so far, so that there is always
room for a successor.
-/

namespace FleetControl

def ConfigVersion.Before (a b : ConfigVersion) : Prop :=
  ∃ m n, Version.number? a.version = some m ∧ Version.number? b.version = some n ∧ m < n

theorem ConfigVersion.Before.trans {a b c : ConfigVersion} (hab : a.Before b) (hbc : b.Before c) :
    a.Before c := by
  obtain ⟨k, m, ha, hb, hkm⟩ := hab
  obtain ⟨m', n, hb', hc, hmn⟩ := hbc
  rw [hb] at hb'
  cases hb'
  exact ⟨k, n, ha, hc, hkm.trans hmn⟩

namespace Store

structure Tables.Disciplined (t : Tables) : Prop where
  numeric : ∀ row ∈ t.ledger, ∃ n, Version.number? row.version = some n
  rising : ∀ topic, (t.history topic).Pairwise ConfigVersion.Before
  changing : ∀ topic, (t.history topic).IsChain fun a b => a.signature ≠ b.signature

def Event.Fails (t : Tables) : Event → Prop
  | .call settings now c => ∃ f, (t.perform (c.operation settings now)).1 = .error f
  | .publish now p => ∃ f, (t.perform (Export.exportFile now p.exporter)).1 = .error f

/-- What one event does to the ledger. -/
structure LedgerStep (t : Tables) (e : Event) : Prop where
  /-- An export adds a row of its topic or none, and nothing else adds any. -/
  appends : (t.after e).ledger = t.ledger ∨
    ∃ row, e.topic? = some row.topic ∧ (t.after e).ledger = t.ledger ++ [row]
  records : ∀ p file, e.publication? = some p →
    (t.perform (Export.exportFile e.now p.exporter)).1 = .ok file →
    ∃ row, ((t.after e).history p.exporter.topic).getLast? = some row ∧
      Versioned.version file = row.version ∧ row.signature = Export.signature file
  /-- Asked for by name, the file is the answer unless the caller has its version. -/
  answers : ∀ settings now name last p, e = .call settings now (.exportTopic name last) →
    e.publication? = some p →
    (t.perform (Call.operation settings now (.exportTopic name last))).1 =
      (t.perform (Export.exportFile now p.exporter)).1.map fun file =>
        (Export.ifChanged last file).map encode
  restores : e.Fails t → (t.after e).ledger = t.ledger

theorem Event.lawful_call {settings : ControlSettings} {now : Instant} {c : Call} {p : Publication}
    (h : (Event.call settings now c).publication? = some p) : LawfulVersioned p.File := by
  cases c <;> try cases h
  obtain ⟨known, -, rfl⟩ := Option.map_eq_some_iff.1 h
  infer_instance

namespace Tables

variable {t t' : Tables} {topic : String} {e : Event} {p : Publication}

theorem perform_error {α : Type} {op : Operation α} {f : Fault}
    (h : (t.perform op).1 = .error f) : (t.perform op).2 = t := by
  cases op with
  | refuse f => rfl
  | query w => rfl
  | update w =>
    rw [perform] at h ⊢
    split at h
    · cases h
    · rfl

theorem Published.getLast? {now : Instant} {signature version : String}
    (h : Export.Published now topic signature t version t') :
    ∃ row, (t'.history topic).getLast? = some row ∧ row.version = version ∧
      row.signature = signature := by
  cases h with
  | reused latest same => exact ⟨_, latest, rfl, same⟩
  | minted changed fresh =>
    have hrows := history_append_self t ⟨topic, signature, version, now⟩
    exact ⟨_, by rw [hrows, List.getLast?_concat], rfl, rfl⟩

theorem ledgerStep (t : Tables) (e : Event)
    (lawful : ∀ p, e.publication? = some p → LawfulVersioned p.File) : LedgerStep t e where
  appends := by
    cases hpub : e.publication? with
    | none => exact Or.inl (ledger_after hpub t)
    | some p =>
      rw [after_publication hpub, Event.topic?_of_publication hpub]
      rcases Export.exportFile_cases p.fetches e.now t with ⟨f, h⟩ | ⟨file, version, u, -, hu, h⟩
      · exact Or.inl (by rw [h])
      · rw [h]
        cases hu with
        | reused => exact Or.inl rfl
        | minted => exact Or.inr ⟨_, rfl, rfl⟩
  records := by
    intro p file hpub hfile
    have := lawful p hpub
    rw [after_publication hpub]
    rcases Export.exportFile_cases p.fetches e.now t with ⟨f, h⟩ | ⟨raw, version, u, -, hu, h⟩
    · rw [h] at hfile
      cases hfile
    · rw [h] at hfile ⊢
      cases hfile
      obtain ⟨row, hlast, hversion, hsignature⟩ := Published.getLast? hu
      refine ⟨row, hlast, ?_, ?_⟩
      · rw [LawfulVersioned.version_setVersion, hversion]
      · rw [Export.signature_setVersion, hsignature]
  answers := by
    rintro settings now name last p rfl hpub
    rw [perform_exportTopic hpub]
  restores := by
    intro hfails
    cases e with
    | call settings now c =>
      obtain ⟨f, hf⟩ := hfails
      exact congrArg Tables.ledger (perform_error hf)
    | publish now p =>
      obtain ⟨f, hf⟩ := hfails
      exact congrArg Tables.ledger (perform_error hf)

/-! The invariant of a run. -/

theorem mem_ledger_of_latest {last : ConfigVersion}
    (h : (t.history topic).getLast? = some last) : last ∈ t.ledger := by
  have hmem : last ∈ t.history topic := List.mem_of_getLast? h
  exact (List.mem_filter.1 hmem).1

theorem Disciplined.before_latest (hd : t.Disciplined) {last row : ConfigVersion}
    (h : (t.history topic).getLast? = some last) (hrow : row ∈ t.history topic) :
    row = last ∨ row.Before last := by
  obtain ⟨earlier, hrows⟩ := List.getLast?_eq_some_iff.1 h
  have hrising := hd.rising topic
  rw [hrows] at hrow hrising
  obtain ⟨-, -, hbefore⟩ := List.pairwise_append.1 hrising
  rcases List.mem_append.1 hrow with hmem | hmem
  · exact Or.inr (hbefore row hmem last List.mem_cons_self)
  · exact Or.inl (List.mem_singleton.1 hmem)

/-- A row may follow if it is later than the last row of its topic and stands for other content. -/
theorem Disciplined.append (hd : t.Disciplined) {row : ConfigVersion}
    (hnumber : ∃ n, Version.number? row.version = some n)
    (hlast : ∀ last, (t.history row.topic).getLast? = some last →
      last.Before row ∧ last.signature ≠ row.signature) :
    Disciplined { t with ledger := t.ledger ++ [row] } where
  numeric := by
    intro r hr
    rcases List.mem_append.1 hr with hr | hr
    · exact hd.numeric r hr
    · rw [List.mem_singleton.1 hr]
      exact hnumber
  rising := by
    intro topic
    by_cases htopic : row.topic = topic
    · subst htopic
      rw [history_append_self, List.pairwise_append]
      refine ⟨hd.rising _, List.pairwise_singleton _ _, ?_⟩
      -- Older rows come before the last one, and that comes before the new row.
      intro r hr r' hr'
      rw [List.mem_singleton.1 hr']
      cases hlatest : (t.history row.topic).getLast? with
      | none =>
        rw [List.getLast?_eq_none_iff.1 hlatest] at hr
        cases hr
      | some last =>
        have hnext := (hlast last hlatest).1
        rcases hd.before_latest hlatest hr with rfl | hbefore
        · exact hnext
        · exact hbefore.trans hnext
    · rw [history_append_other t htopic]
      exact hd.rising topic
  changing := by
    intro topic
    by_cases htopic : row.topic = topic
    · subst htopic
      rw [history_append_self, List.isChain_append]
      refine ⟨hd.changing _, List.isChain_singleton _, ?_⟩
      intro last hlatest r hr
      cases hr
      exact (hlast last hlatest).2
    · rw [history_append_other t htopic]
      exact hd.changing topic

/-- The discipline, with a bound on the versions there are after so many exports. -/
structure Kept (exports : Nat) (t : Tables) : Prop where
  disciplined : t.Disciplined
  bounded : ∀ row ∈ t.ledger, ∀ n, Version.number? row.version = some n →
    n ≤ Version.lastStamp + exports

theorem kept_start : Kept 0 start where
  disciplined :=
    { numeric := fun _ hrow => absurd hrow List.not_mem_nil
      rising := fun _ => .nil
      changing := fun _ => .nil }
  bounded := fun _ hrow => absurd hrow List.not_mem_nil

theorem Kept.mono {k l : Nat} (hk : Kept k t) (hkl : k ≤ l) : Kept l t where
  disciplined := hk.disciplined
  bounded := by
    intro row hrow n hn
    have hle := hk.bounded row hrow n hn
    omega

/-- A topic always has a next version. It is a number within the bound of one more export, and greater
than the version it follows. -/
theorem Kept.mint {k : Nat} (hk : Kept k t) (hroom : k < 2 ^ 63) {now : Instant}
    (hyears : Version.InYears now) (topic : String) :
    ∃ version m, Version.mint now ((t.history topic).getLast?.map (·.version)) = .ok version ∧
      Version.number? version = some m ∧ m ≤ Version.lastStamp + (k + 1) ∧
      ∀ last, (t.history topic).getLast? = some last →
        ∃ n, Version.number? last.version = some n ∧ n < m := by
  have hstamp := Version.stampNumber_le hyears
  have hwide : Version.lastStamp + (k + 1) < 2 ^ 64 := by
    rw [Version.lastStamp]
    omega
  cases hlatest : (t.history topic).getLast? with
  | none =>
    refine ⟨_, _, Version.mint_none hyears, Version.number?_ofNumber (by omega), by omega, ?_⟩
    intro last hlast
    cases hlast
  | some last =>
    have hmem := mem_ledger_of_latest hlatest
    obtain ⟨n, hn⟩ := hk.disciplined.numeric last hmem
    -- This is where the number of exports counts: the last version must have a successor.
    have hbound := hk.bounded last hmem n hn
    refine ⟨_, _, Version.mint_some hyears hn (by omega), Version.number?_ofNumber (by omega),
      by omega, ?_⟩
    intro last' hlast
    cases hlast
    exact ⟨n, hn, by omega⟩

theorem Kept.published {k : Nat} (hk : Kept k t) (hroom : k < 2 ^ 63) {now : Instant}
    (hyears : Version.InYears now) {signature version : String}
    (h : Export.Published now topic signature t version t') : Kept (k + 1) t' := by
  have hmono := hk.mono (Nat.le_succ k)
  cases h with
  | reused => exact hmono
  | minted changed fresh =>
    obtain ⟨version', m, hmint, hm, hle, hnext⟩ := hk.mint hroom hyears topic
    obtain rfl : version' = version := Except.ok.inj (hmint.symm.trans fresh)
    constructor
    · refine hk.disciplined.append ⟨m, hm⟩ ?_
      intro last hlast
      obtain ⟨n, hn, hlt⟩ := hnext last hlast
      exact ⟨⟨n, m, hn, hm, hlt⟩, changed last hlast⟩
    · intro row hrow n hn
      rcases List.mem_append.1 hrow with hrow | hrow
      · exact hmono.bounded row hrow n hn
      · cases List.mem_singleton.1 hrow
        rw [hm] at hn
        cases hn
        exact hle

theorem Kept.after {k : Nat} (hk : Kept k t) (hyears : Version.InYears e.now)
    (hroom : e.topic?.isSome → k < 2 ^ 63) :
    Kept (k + if e.topic?.isSome then 1 else 0) (t.after e) := by
  cases hpub : e.publication? with
  | none =>
    have hledger := ledger_after hpub t
    have hhistory (topic : String) : (t.after e).history topic = t.history topic := by
      rw [history, history, hledger]
    obtain ⟨⟨hnumeric, hrising, hchanging⟩, hbounded⟩ := hk
    rw [← hledger] at hnumeric hbounded
    apply Kept.mono (k := k) ?_ (Nat.le_add_right k _)
    refine ⟨⟨hnumeric, ?_, ?_⟩, hbounded⟩ <;> intro topic <;> rw [hhistory]
    · exact hrising topic
    · exact hchanging topic
  | some p =>
    rw [Event.topic?_of_publication hpub] at hroom ⊢
    rw [after_publication hpub]
    rcases Export.exportFile_cases p.fetches e.now t with ⟨f, h⟩ | ⟨file, version, u, -, hu, h⟩
    · rw [h]
      exact hk.mono (Nat.le_succ k)
    · rw [h]
      exact hk.published (hroom rfl) hyears hu

theorem Kept.run {k : Nat} (hk : Kept k t) (events : List Event)
    (hyears : ∀ e ∈ events, Version.InYears e.now)
    (hroom : k + events.countP (·.topic?.isSome) < 2 ^ 63) :
    Kept (k + events.countP (·.topic?.isSome)) (t.run events) := by
  induction events generalizing t k with
  | nil => exact hk
  | cons e events ih =>
    rw [List.countP_cons, Nat.add_comm (events.countP _), ← Nat.add_assoc] at hroom ⊢
    refine ih (hk.after (hyears e List.mem_cons_self) ?_) ?_ hroom
    · intro _
      omega
    · intro e' he'
      exact hyears e' (List.mem_cons_of_mem e he')

/-- The ledger of every run is disciplined, every event of it adds one row of its own topic at most,
and no topic shows what was exported under another. -/
theorem run_ledger (events : List Event) (hyears : ∀ e ∈ events, Version.InYears e.now)
    (hexports : events.countP (·.topic?.isSome) < 2 ^ 63)
    (hlawful : ∀ now p, .publish now p ∈ events → LawfulVersioned p.File) :
    (start.run events).Disciplined ∧
      (∀ past e later, events = past ++ e :: later → LedgerStep (start.run past) e) ∧
      ∀ topic, (start.run events).history topic =
        (start.run (events.filter (·.concerns topic))).history topic := by
  refine ⟨?_, ?_, ?_⟩
  · have hkept := kept_start.run events hyears (by rwa [Nat.zero_add])
    exact hkept.disciplined
  · rintro past e later rfl
    apply ledgerStep
    intro p hpub
    cases e with
    | publish now q =>
      cases hpub
      apply hlawful now p
      exact List.mem_append_right past List.mem_cons_self
    | call settings now c => exact Event.lawful_call hpub
  · intro topic
    exact history_run_filter topic events start

def backwards : List Event :=
  [.call {} ⟨1704067200000000⟩ (.exportTopic "host_table" none),
    .call {} ⟨1704067200000000⟩ (.exportTopic "cluster_table" none),
    .call {} ⟨1672531200000000⟩ (.createDomain "BFE" ⟨"shop.example", false, false⟩),
    .publish ⟨1672531200000000⟩ (.known none .hostTable)]

theorem backwards_ledger :
    (∀ e ∈ backwards, Version.InYears e.now) ∧
      backwards.countP (·.topic?.isSome) < 2 ^ 63 ∧
      (start.run backwards).Disciplined ∧
      ((start.run backwards).history "host_table").map (·.version) =
        ["20240101000000000", "20240101000000001"] ∧
      ((start.run (backwards.filter (·.concerns "host_table"))).history "host_table").map
        (·.version) = ["20240101000000000", "20240101000000001"] := by
  have hyears : ∀ e ∈ backwards, Version.InYears e.now := by decide +kernel
  have hexports : backwards.countP (·.topic?.isSome) < 2 ^ 63 := by decide +kernel
  have hlawful : ∀ now p, .publish now p ∈ backwards → LawfulVersioned p.File := by
    intro now p hmem
    simp only [backwards, List.mem_cons, reduceCtorEq, Event.publish.injEq, List.not_mem_nil,
      false_or, or_false] at hmem
    obtain ⟨-, rfl⟩ := hmem
    infer_instance
  obtain ⟨hdisciplined, -, hisolated⟩ := run_ledger backwards hyears hexports hlawful
  have hversions : ((start.run backwards).history "host_table").map (·.version) =
      ["20240101000000000", "20240101000000001"] := by decide +kernel
  refine ⟨hyears, hexports, hdisciplined, hversions, ?_⟩
  rw [← hisolated]
  exact hversions

end Tables
end Store
end FleetControl
