import FleetControl.Proofs.Files
import FleetControl.Proofs.Ledger

/-!
What an export tells a caller who has an earlier file of the topic. It answers nothing only if the
file it would give is the caller's own, however much happened in between, as long as no two different
texts of the run have the same digest.
-/

namespace FleetControl

namespace Export

open Store Store.Work

variable {α : Type} [Versioned α] [Json.Encode α]

def signedText (file : α) : String :=
  (encode (Versioned.setVersion Version.zero file)).canonical.text

theorem setVersion_of_signedText [Json.Decode α] [Json.LawfulCodec α] [LawfulVersioned α]
    {file file' : α} (h : signedText file = signedText file') (v : String) :
    Versioned.setVersion v file = Versioned.setVersion v file' := by
  have hzero : Versioned.setVersion Version.zero file = Versioned.setVersion Version.zero file' :=
    Json.canonical_text_injective h
  rw [← LawfulVersioned.setVersion_setVersion v Version.zero file, hzero,
    LawfulVersioned.setVersion_setVersion]

theorem perform_exportFile {e : Exporter α} (he : e.generate.Only (·.fetches = true))
    {t t' : Tables} {file : α} (hfile : (e.generate.run Tables.answer t).1 = .ok file)
    {now : Instant} {version : String} (hchoose : Yields Tables.answer t
      (chooseVersion now e.topic (signature file) (t.history e.topic).getLast?) version t') :
    t.perform (exportFile now e) = (.ok (Versioned.setVersion version file), t') := by
  have hgenerate : Yields Tables.answer t e.generate file t := by
    rcases hrun : e.generate.run Tables.answer t with ⟨x, u⟩
    rw [hrun] at hfile
    obtain rfl : x = .ok file := hfile
    obtain rfl := Tables.fetches_yields he hrun
    exact hrun
  rw [exportFile, Tables.perform]
  have hrun : Yields Tables.answer t (do
      ask (.lockTopic e.topic)
      let file ← e.generate
      let latest ← ask (.latestVersion e.topic)
      let version ← chooseVersion now e.topic (signature file) latest
      return Versioned.setVersion version file) (Versioned.setVersion version file) t' := by
    simp only [yields_bind, yields_ask, yields_pure]
    exact ⟨_, t, rfl, file, t, hgenerate, _, t, rfl, version, t', hchoose, rfl, rfl⟩
  rw [hrun]

theorem exportFile_reused {e : Exporter α} (he : e.generate.Only (·.fetches = true))
    {t : Tables} {file : α} (hfile : (e.generate.run Tables.answer t).1 = .ok file)
    {last : ConfigVersion} (hlast : (t.history e.topic).getLast? = some last)
    (hsame : last.signature = signature file) (now : Instant) :
    t.perform (exportFile now e) = (.ok (Versioned.setVersion last.version file), t) := by
  refine perform_exportFile he hfile ?_
  rw [hlast]
  simp only [chooseVersion, hsame, if_true]
  exact yields_done.2 ⟨rfl, rfl⟩

theorem exportFile_answers [LawfulVersioned α] {e : Exporter α}
    (he : e.generate.Only (·.fetches = true)) {now : Instant} {t : Tables} {p : α}
    (h : (t.perform (exportFile now e)).1 = .ok p) :
    ∃ file, (e.generate.run Tables.answer t).1 = .ok file ∧
      p = Versioned.setVersion (Versioned.version p) file ∧
      ∃ row, ((t.perform (exportFile now e)).2.history e.topic).getLast? = some row ∧
        row.version = Versioned.version p ∧ row.signature = signature p := by
  rcases exportFile_cases he now t with ⟨f, hf⟩ | ⟨file, version, t', hfile, hpublished, hok⟩
  · rw [hf] at h
    cases h
  · rw [hok] at h ⊢
    cases h
    obtain ⟨row, hlast, hversion, hsignature⟩ := Tables.Published.getLast? hpublished
    refine ⟨file, congrArg Prod.fst hfile, ?_, row, hlast, ?_, ?_⟩
    · rw [LawfulVersioned.version_setVersion]
    · rw [LawfulVersioned.version_setVersion, hversion]
    · rw [signature_setVersion, hsignature]

namespace Topic

def generated (topic : Topic) (defaultProduct : Option String) (t : Tables) :
    Except Fault topic.File :=
  ((topic.exporter defaultProduct).generate.run Tables.answer t).1

def answer (topic : Topic) (defaultProduct : Option String) (now : Instant) (last : Option String)
    (t : Tables) : Except Fault (Option topic.File) :=
  (t.perform (exportIfChanged now (topic.exporter defaultProduct) last)).1

theorem answer_eq (topic : Topic) (defaultProduct : Option String) (now : Instant)
    (last : Option String) (t : Tables) : topic.answer defaultProduct now last t =
      (t.perform (exportFile now (topic.exporter defaultProduct))).1.map (ifChanged last) := by
  rw [answer, exportIfChanged, perform_map]

theorem answer_none {topic : Topic} {defaultProduct : Option String} {now : Instant} {v : String}
    {t : Tables} : topic.answer defaultProduct now (some v) t = .ok none ↔
      ∃ q, (t.perform (exportFile now (topic.exporter defaultProduct))).1 = .ok q ∧
        Versioned.version q = v := by
  rw [answer_eq]
  rcases (t.perform (exportFile now (topic.exporter defaultProduct))).1 with f | q
  · simp [Except.map]
  · simp [Except.map, ifChanged, eq_comm]

theorem answer_some {topic : Topic} {defaultProduct : Option String} {now : Instant} {v : String}
    {t : Tables} {q : topic.File} :
    topic.answer defaultProduct now (some v) t = .ok (some q) ↔
      (t.perform (exportFile now (topic.exporter defaultProduct))).1 = .ok q ∧
        Versioned.version q ≠ v := by
  rw [answer_eq]
  rcases (t.perform (exportFile now (topic.exporter defaultProduct))).1 with f | q'
  · simp [Except.map]
  · simp only [Except.map, ifChanged, Option.some.injEq, Except.ok.injEq]
    split
    · rename_i h
      simp only [reduceCtorEq, false_iff, not_and, not_not]
      rintro rfl
      exact h.symm
    · rename_i h
      simp only [Option.some.injEq]
      constructor
      · rintro rfl
        exact ⟨rfl, fun e => h e.symm⟩
      · exact fun h => h.1

end Topic
end Export

namespace Store

open Export Control

def Event.signs? (t : Tables) (e : Event) : Option String :=
  e.publication?.bind fun p =>
    match (t.perform (exportFile e.now p.exporter)).1 with
    | .ok file => some (signedText file)
    | .error _ => none

namespace Tables

variable {t : Tables} {e : Event} {events : List Event} {name : String}

def signedTexts (t : Tables) : List Event → List String
  | [] => []
  | e :: events => (e.signs? t).toList ++ (t.after e).signedTexts events

/-- Different texts of the run have different digests. -/
def CollisionFree (events : List Event) : Prop :=
  ∀ a ∈ start.signedTexts events, ∀ b ∈ start.signedTexts events,
    Sha256.ofText a = Sha256.ofText b → a = b

instance (events : List Event) : Decidable (CollisionFree events) :=
  inferInstanceAs (Decidable (∀ a ∈ start.signedTexts events, ∀ b ∈ start.signedTexts events,
    Sha256.ofText a = Sha256.ofText b → a = b))

def Quiet (topic : String) (t : Tables) : List Event → Prop
  | [] => True
  | e :: events => (e.topic? = some topic → e.Fails t) ∧ Quiet topic (t.after e) events

theorem mem_signedTexts {s : String} {past : List Event} (later : List Event)
    (h : e.signs? (t.run past) = some s) : s ∈ t.signedTexts (past ++ e :: later) := by
  induction past generalizing t with
  | nil =>
    have hhead : e.signs? t = some s := h
    rw [List.nil_append, signedTexts, hhead]
    exact List.mem_append_left _ List.mem_cons_self
  | cons e' past ih =>
    rw [List.cons_append, signedTexts]
    exact List.mem_append_right _ (ih h)

theorem after_of_fails (h : e.Fails t) : t.after e = t := by
  cases e with
  | call settings now c =>
    obtain ⟨f, hf⟩ := h
    exact perform_error hf
  | publish now p =>
    obtain ⟨f, hf⟩ := h
    exact perform_error hf

theorem ledger_prefix_after (t : Tables) (e : Event) : t.ledger <+: (t.after e).ledger := by
  cases hpub : e.publication? with
  | none =>
    exact ⟨[], by rw [List.append_nil, ledger_after hpub]⟩
  | some p =>
    rw [after_publication hpub]
    rcases exportFile_ledger p.fetches e.now t with h | ⟨row, h⟩
    · exact ⟨[], by rw [List.append_nil, h]⟩
    · exact ⟨[row], by rw [h]⟩

theorem ledger_prefix_run (t : Tables) (events : List Event) :
    t.ledger <+: (t.run events).ledger := by
  induction events generalizing t with
  | nil => exact List.prefix_rfl
  | cons e events ih => exact (ledger_prefix_after t e).trans (ih (t.after e))

theorem history_prefix_run (topic : String) (t : Tables) (events : List Event) :
    t.history topic <+: (t.run events).history topic :=
  (ledger_prefix_run t events).filter _

theorem mem_history_perform {topic : Topic} {defaultProduct : Option String} {now : Instant}
    {row : ConfigVersion} (h : row ∈ t.history name) :
    row ∈ (t.perform (exportFile now (topic.exporter defaultProduct))).2.history name := by
  rcases exportFile_ledger (topic.exporter_fetches defaultProduct) now t with hsame | ⟨new, hnew⟩
  · rw [hsame]
    exact h
  · rw [hnew, history]
    dsimp only
    rw [List.filter_append]
    exact List.mem_append_left _ h

theorem history_after_of_fails {topic : String} (h : e.topic? = some topic → e.Fails t) :
    (t.after e).history topic = t.history topic := by
  cases hconcerns : e.concerns topic with
  | false =>
    obtain ⟨ledger, -, hrows⟩ := (Alike.refl topic t).skip hconcerns
    exact hrows.symm
  | true =>
    cases hpub : e.publication? with
    | none => rw [history, history, ledger_after hpub]
    | some p =>
      have htopic := Event.topic?_of_publication hpub
      rw [Event.concerns, htopic, Option.all_some, decide_eq_true_eq] at hconcerns
      rw [hconcerns] at htopic
      rw [after_of_fails (h htopic)]

theorem history_run_of_quiet {topic : String} (h : Quiet topic t events) :
    (t.run events).history topic = t.history topic := by
  induction events generalizing t with
  | nil => rfl
  | cons e events ih =>
    obtain ⟨hfails, hrest⟩ := h
    have hkept : ((t.after e).run events).history topic = (t.after e).history topic := ih hrest
    exact hkept.trans (history_after_of_fails hfails)

/-- An earlier export of the topic, and what a later one tells the caller who has its file `p`. -/
structure Truthful (topic : Topic) (first second : Option String) (t : Tables) (e : Event)
    (p : topic.File) (between : List Event) (e' : Event) : Prop where
  unchanged :
    topic.answer second e'.now (some (Versioned.version p)) ((t.after e).run between) = .ok none →
      (topic.generated second ((t.after e).run between)).map
        (Versioned.setVersion (Versioned.version p)) = .ok p
  changed : ∀ q,
    topic.answer second e'.now (some (Versioned.version p)) ((t.after e).run between) =
        .ok (some q) →
      ∃ m n, Version.number? (Versioned.version p) = some m ∧
        Version.number? (Versioned.version q) = some n ∧ m < n
  /-- Content that was not exported differently meanwhile is not answered again. -/
  consecutive : Quiet (topic.exporter second).topic (t.after e) between →
    topic.generated second ((t.after e).run between) = topic.generated first t →
      topic.answer second e'.now (some (Versioned.version p)) ((t.after e).run between) = .ok none
  named : ∀ settings now name last, e' = .call settings now (.exportTopic name last) →
    (((t.after e).run between).perform
        (Call.operation settings now (.exportTopic name last))).1 =
      (topic.answer second now last ((t.after e).run between)).map (·.map encode)

theorem signs?_of_export {topic : Topic} {defaultProduct : Option String} {p : topic.File}
    (hpub : e.publication? = some (.known defaultProduct topic))
    (h : (t.perform (exportFile e.now (topic.exporter defaultProduct))).1 = .ok p) :
    e.signs? t = some (signedText p) := by
  rw [Topic.known_eq] at hpub
  rw [Event.signs?, hpub, Option.bind_some]
  dsimp only
  rw [h]

theorem after_topic {topic : Topic} {defaultProduct : Option String}
    (h : e.publication? = some (.known defaultProduct topic)) (t : Tables) :
    t.after e = (t.perform (exportFile e.now (topic.exporter defaultProduct))).2 := by
  rw [Topic.known_eq] at h
  exact after_publication h t

theorem perform_exportByName {settings : ControlSettings} {now : Instant} {name : String}
    {last : Option String} {topic : Topic} {defaultProduct : Option String}
    (h : (Event.call settings now (.exportTopic name last)).publication? =
      some (.known defaultProduct topic)) (t : Tables) :
    (t.perform (Call.operation settings now (.exportTopic name last))).1 =
      (topic.answer defaultProduct now last t).map (·.map encode) := by
  rw [Topic.known_eq] at h
  rw [perform_exportTopic h, Topic.answer_eq]
  dsimp only
  cases (t.perform (exportFile now (topic.exporter defaultProduct))).1 <;> rfl

/-- A file the ledger has a row of, and the file of a later export: the row is still the last, or the
later file has a greater version. -/
theorem Disciplined.compare {topic : Topic} {defaultProduct : Option String} {now : Instant}
    {p q : topic.File} {row : ConfigVersion}
    (hd : (t.perform (exportFile now (topic.exporter defaultProduct))).2.Disciplined)
    (hrow : row ∈ t.history (topic.exporter defaultProduct).topic)
    (hversion : row.version = Versioned.version p) (hsignature : row.signature = signature p)
    (hq : (t.perform (exportFile now (topic.exporter defaultProduct))).1 = .ok q) :
    (Versioned.version q = Versioned.version p ∧ signature q = signature p) ∨
      ∃ m n, Version.number? (Versioned.version p) = some m ∧
        Version.number? (Versioned.version q) = some n ∧ m < n := by
  obtain ⟨-, -, -, row', hlast, hversion', hsignature'⟩ :=
    exportFile_answers (topic.exporter_fetches defaultProduct) hq
  rcases hd.before_latest hlast (mem_history_perform hrow) with rfl | ⟨m, n, hm, hn, hlt⟩
  · left
    exact ⟨hversion'.symm.trans hversion, hsignature'.symm.trans hsignature⟩
  · right
    rw [hversion] at hm
    rw [hversion'] at hn
    exact ⟨m, n, hm, hn, hlt⟩

theorem disciplined_within {past later : List Event}
    (hyears : ∀ e' ∈ past ++ e :: later, Version.InYears e'.now)
    (hexports : (past ++ e :: later).countP (·.topic?.isSome) < 2 ^ 63) :
    ((start.run past).after e).Disciplined := by
  have hgrows : past ++ [e] <+: past ++ e :: later := ⟨later, by simp⟩
  have hcount := hgrows.sublist.countP_le (p := (·.topic?.isSome))
  have hrun : (start.run past).after e = start.run (past ++ [e]) := by
    rw [run_append]
    rfl
  rw [hrun]
  refine (kept_start.run _ (fun e' he' => hyears e' (hgrows.subset he')) ?_).disciplined
  omega

/-- No export of a run passes other content off as the caller's, or an old version as a new one. -/
theorem run_truthful {past between later : List Event} {e e' : Event} {topic : Topic}
    {first second : Option String} {p : topic.File}
    (hyears : ∀ e₀ ∈ past ++ e :: (between ++ e' :: later), Version.InYears e₀.now)
    (hexports : (past ++ e :: (between ++ e' :: later)).countP (·.topic?.isSome) < 2 ^ 63)
    (hfree : CollisionFree (past ++ e :: (between ++ e' :: later)))
    (hfirst : e.publication? = some (.known first topic))
    (hsecond : e'.publication? = some (.known second topic))
    (hp : ((start.run past).perform (exportFile e.now (topic.exporter first))).1 = .ok p) :
    Truthful topic first second (start.run past) e p between e' := by
  obtain ⟨file, hfile, hstamped, row, hlast, hversion, hsignature⟩ :=
    exportFile_answers (topic.exporter_fetches first) hp
  have hrun : ((start.run past).after e).run between = start.run (past ++ e :: between) := by
    rw [run_append]
    rfl
  have hevents : past ++ e :: (between ++ e' :: later) = (past ++ e :: between) ++ e' :: later := by
    rw [List.append_assoc, List.cons_append]
  have hsigned := mem_signedTexts (between ++ e' :: later) (signs?_of_export hfirst hp)
  rw [← after_topic hfirst, topic.exporter_topic first second] at hlast
  have hdisciplined := disciplined_within (hevents ▸ hyears) (hevents ▸ hexports)
  rw [← hrun, after_topic hsecond] at hdisciplined
  -- The row of the file stays in the ledger.
  have hrow := (history_prefix_run _ _ between).subset (List.mem_of_getLast? hlast)
  constructor
  · intro hnone
    obtain ⟨q, hq, hsame⟩ := Topic.answer_none.1 hnone
    obtain ⟨file', hfile', hstamped', -⟩ := exportFile_answers (topic.exporter_fetches second) hq
    rcases hdisciplined.compare hrow hversion hsignature hq with ⟨-, hdigest⟩ | ⟨m, n, hm, hn, hlt⟩
    · have hsigned' := mem_signedTexts later (signs?_of_export hsecond (hrun ▸ hq))
      rw [← hevents] at hsigned'
      have htext : signedText q = signedText p := hfree _ hsigned' _ hsigned hdigest
      have hcontent : Versioned.setVersion (Versioned.version p) file' = p := by
        calc Versioned.setVersion (Versioned.version p) file'
            = Versioned.setVersion (Versioned.version p) q := by
              rw [hstamped', LawfulVersioned.setVersion_setVersion]
          _ = Versioned.setVersion (Versioned.version p) p := setVersion_of_signedText htext _
          _ = p := by
              rw [hstamped, LawfulVersioned.version_setVersion, LawfulVersioned.setVersion_setVersion]
      rw [Topic.generated, hfile']
      exact congrArg Except.ok hcontent
    · rw [hsame, hm] at hn
      cases hn
      omega
  · intro q hsome
    obtain ⟨hq, hother⟩ := Topic.answer_some.1 hsome
    rcases hdisciplined.compare hrow hversion hsignature hq with ⟨hsame, -⟩ | hgreater
    · exact absurd hsame hother
    · exact hgreater
  · intro hquiet hgenerated
    have hlatest : ((((start.run past).after e).run between).history
        (topic.exporter second).topic).getLast? = some row := by
      rw [history_run_of_quiet hquiet, hlast]
    have hsame : row.signature = signature file := by
      rw [hsignature, hstamped, signature_setVersion]
    have hreused := exportFile_reused (topic.exporter_fetches second) (hgenerated.trans hfile)
      hlatest hsame e'.now
    refine Topic.answer_none.2 ⟨_, congrArg Prod.fst hreused, ?_⟩
    rw [LawfulVersioned.version_setVersion, hversion]
  · rintro settings now name last rfl
    exact perform_exportByName hsecond _

def comeAndGone : List Event :=
  [.call {} ⟨1704067200000000⟩ (.createDomain "BFE" ⟨"shop.example", false, false⟩),
    .call {} ⟨1704067200000000⟩ (.exportTopic "cluster_table" none),
    .call {} ⟨1704067200000000⟩ (.deleteDomain "BFE" "shop.example")]

theorem comeAndGone_truthful :
    let hosts : Topic.File .hostTable :=
      (⟨"20240101000000000", none, ∅, ∅⟩ : Files.HostTable)
    let first : Event := .call {} ⟨1704067200000000⟩ (.exportTopic "host_table" none)
    let second : Event := .publish ⟨1672531200000000⟩ (.known none .hostTable)
    let run := [] ++ first :: (comeAndGone ++ second :: [])
    (∀ e ∈ run, Version.InYears e.now) ∧ run.countP (·.topic?.isSome) < 2 ^ 63 ∧
      CollisionFree run ∧
      Topic.answer .hostTable none second.now (some "20240101000000000")
        ((start.after first).run comeAndGone) = .ok none ∧
      (Topic.generated .hostTable none ((start.after first).run comeAndGone)).map
        (Versioned.setVersion "20240101000000000") = .ok hosts := by
  intro hosts first second run
  have hyears : ∀ e ∈ run, Version.InYears e.now := by decide +kernel
  have hexports : run.countP (·.topic?.isSome) < 2 ^ 63 := by decide +kernel
  have hfree : CollisionFree run := by decide +kernel
  have hhosts : (start.perform (exportFile first.now (Topic.exporter none .hostTable))).1 =
      .ok hosts := by decide +kernel
  have htruthful := run_truthful hyears hexports hfree rfl rfl hhosts
  have hquiet : Quiet "host_table" (start.after first) comeAndGone := by
    refine ⟨?_, ?_, ?_, trivial⟩ <;> intro h <;> simp [Event.topic?] at h
  have hgenerated : Topic.generated .hostTable none ((start.after first).run comeAndGone) =
      Topic.generated .hostTable none start := by decide +kernel
  have hnone := htruthful.consecutive hquiet hgenerated
  exact ⟨hyears, hexports, hfree, hnone, htruthful.unchanged hnone⟩

end Tables
end Store
end FleetControl
