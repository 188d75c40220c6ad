import FleetControl.Proofs.Agreement
import FleetControl.Proofs.Supplies

/-!
Exports do not fail on what the managers let in. Generating a file needs the records it joins to be
there, and choosing a version needs the last one to be a number; both hold along every run, so an
export fails only for a BFE cluster or a default product that does not exist, and then says so.
-/

namespace FleetControl

/-- If the last version is a number, nothing is wrong with the data. -/
theorem Version.mint_error {now : Instant} {last : Option String}
    (hlast : ∀ text, last = some text → ∃ n, number? text = some n) {failure : MintFailure}
    (h : mint now last = .error failure) : failure.fault.isDirty = false := by
  rw [mint] at h
  cases hstamp : Text.unsigned64? (stamp now) with
  | none =>
    rw [hstamp] at h
    cases h
    rfl
  | some candidate =>
    rw [hstamp] at h
    cases last with
    | none => cases h
    | some text =>
      obtain ⟨n, hn⟩ := hlast text rfl
      simp only [hn] at h
      split at h
      · cases h
      · split at h <;> cases h
        rfl

namespace Export

open Control Store Store.Work Store.Tables

variable {t : Tables} {now : Instant} {topic signature : String}

theorem latest_numeric (hd : t.Disciplined) (topic : String) :
    ∀ text, (t.history topic).getLast?.map (·.version) = some text →
      ∃ n, Version.number? text = some n := by
  intro text htext
  obtain ⟨last, hlast, rfl⟩ := Option.map_eq_some_iff.1 htext
  exact hd.numeric last (mem_ledger_of_latest hlast)

theorem chooseVersion_total {k : Nat} (hk : Kept k t) (hroom : k < 2 ^ 63)
    (hyears : Version.InYears now) (topic signature : String) : ∃ version t',
      Yields Tables.answer t (chooseVersion now topic signature (t.history topic).getLast?)
        version t' := by
  obtain ⟨version, -, hmint, -⟩ := hk.mint hroom hyears topic
  by_cases hfresh : ∀ last, (t.history topic).getLast? = some last → last.signature ≠ signature
  · exact ⟨version, _, chooseVersion_yields_iff.2 (.minted hfresh hmint)⟩
  · push Not at hfresh
    obtain ⟨last, hlast, hsame⟩ := hfresh
    exact ⟨last.version, t, chooseVersion_yields_iff.2 (.reused hlast hsame)⟩

theorem chooseVersion_clean (hd : t.Disciplined) (now : Instant) (topic signature : String) :
    (chooseVersion now topic signature (t.history topic).getLast?).CleanOn Anything t := by
  by_cases hfresh : ∀ last, (t.history topic).getLast? = some last → last.signature ≠ signature
  · rw [chooseVersion_fresh hfresh]
    refine clean_bind (clean_ofExcept fun f hf => ?_) (fun version => ?_) t trivial
    · cases hmint : Version.mint now ((t.history topic).getLast?.map (·.version)) with
      | ok version =>
        rw [hmint] at hf
        cases hf
      | error failure =>
        rw [hmint] at hf
        cases hf
        exact Version.mint_error (latest_numeric hd topic) hmint
    · exact clean_bind (clean_write _) fun _ => clean_pure _
  · push Not at hfresh
    obtain ⟨last, hlast, hsame⟩ := hfresh
    rw [hlast, chooseVersion_same hsame]
    exact clean_done _ t trivial

variable {α : Type} [Versioned α] [Json.Encode α] {e : Exporter α}

theorem exportFile_total {k : Nat} (he : e.generate.Only (·.fetches = true)) (hk : Kept k t)
    (hroom : k < 2 ^ 63) (hyears : Version.InYears now) {file : α}
    (hfile : (e.generate.run Tables.answer t).1 = .ok file) :
    ∃ p, (t.perform (exportFile now e)).1 = .ok p := by
  obtain ⟨version, t', hchoose⟩ := chooseVersion_total hk hroom hyears e.topic (signature file)
  exact ⟨_, congrArg Prod.fst (perform_exportFile he hfile hchoose)⟩

theorem exportFile_error {f : Fault} (hfail : (e.generate.run Tables.answer t).1 = .error f) :
    (t.perform (exportFile now e)).1 = .error f := by
  rcases hrun : e.generate.run Tables.answer t with ⟨x, t'⟩
  rw [hrun] at hfail
  obtain rfl : x = .error f := hfail
  simp only [exportFile, Tables.perform, bind_eq, run_bind, ask, Work.run, Tables.answer, hrun]

theorem exportFile_clean (he : e.generate.Only (·.fetches = true)) (hd : t.Disciplined)
    (hgenerate : ∀ f, (e.generate.run Tables.answer t).1 = .error f → f.isDirty = false) {f : Fault}
    (hf : (t.perform (exportFile now e)).1 = .error f) : f.isDirty = false := by
  have hclean : (exportFile now e).CleanOn Anything t := by
    refine CleanOn.bind (clean_write _ t trivial) fun _ _ _ hlock => ?_
    rw [yields_ask] at hlock
    cases hlock
    refine CleanOn.bind ⟨hgenerate, trivial⟩ fun file _ _ hfile => ?_
    obtain rfl := fetches_yields he hfile
    refine CleanOn.bind (clean_write _ _ trivial) fun latest _ _ hlatest => ?_
    rw [yields_ask] at hlatest
    cases hlatest
    refine CleanOn.bind (chooseVersion_clean hd now e.topic (signature file)) fun version t' ht' _ => ?_
    exact clean_pure _ t' ht'
  exact hclean.perform hf

namespace Topic

variable {topic : Topic} {defaultProduct : Option String}

theorem missing?_clean {f : Fault} (h : topic.missing? defaultProduct t = some f) :
    f.isDirty = false := by
  cases topic with
  | hostTable => exact Fault.clean_map (fun _ => rfl) h
  | gslb bfe =>
    rw [missing?] at h
    split at h
    · cases h
    · cases h
      rfl
  | _ => cases h

theorem generated_clean (hc : Consistent t) {f : Fault}
    (h : topic.generated defaultProduct t = .error f) : f.isDirty = false := by
  cases hmissing : topic.missing? defaultProduct t with
  | none =>
    obtain ⟨file, hfile, -⟩ := generated_shows hc hmissing
    rw [hfile] at h
    cases h
  | some f' =>
    rw [generated_missing hc hmissing] at h
    cases h
    exact missing?_clean hmissing

theorem answer_total {k : Nat} (hc : Consistent t) (hk : Kept k t) (hroom : k < 2 ^ 63)
    (hyears : Version.InYears now)
    (hpresent : topic.missing? defaultProduct t = none) (last : Option String) :
    ∃ a, topic.answer defaultProduct now last t = .ok a := by
  obtain ⟨file, hfile, -⟩ := generated_shows hc hpresent
  obtain ⟨p, hp⟩ :=
    exportFile_total (topic.exporter_fetches defaultProduct) hk hroom hyears hfile
  exact ⟨_, by rw [answer_eq, hp]; rfl⟩

theorem answer_missing (hc : Consistent t) {f : Fault}
    (hmissing : topic.missing? defaultProduct t = some f) (now : Instant) (last : Option String) :
    topic.answer defaultProduct now last t = .error f := by
  rw [answer_eq, exportFile_error (generated_missing hc hmissing)]
  rfl

end Topic

theorem exportTopic_clean (hc : Consistent t) (hd : t.Disciplined) {defaultProduct : Option String}
    {name : String} {last : Option String} {f : Fault}
    (hf : (t.perform (exportTopic defaultProduct now name last)).1 = .error f) :
    f.isDirty = false := by
  rw [exportTopic] at hf
  split at hf
  · rename_i topic _
    rw [Publication.perform_exportKnown, Topic.known_eq] at hf
    cases hexport : (t.perform (exportFile now (topic.exporter defaultProduct))).1 with
    | ok p =>
      rw [hexport] at hf
      cases hf
    | error f' =>
      rw [hexport] at hf
      cases hf
      exact exportFile_clean (topic.exporter_fetches defaultProduct) hd
        (fun _ => Topic.generated_clean hc) hexport
  · cases hf
    rfl

end Export

namespace Store.Tables

open Export

variable {t : Tables}

/-- At that moment every file can be exported, unless it is about something that does not exist. -/
structure Exportable (now : Instant) (t : Tables) : Prop where
  fixed : ∀ topic ∈ [Topic.routeRule, .clusterTable, .instanceTable, .certificate],
    ∀ defaultProduct last, ∃ a, topic.answer defaultProduct now last t = .ok a
  gslb : ∀ i b, t.bfeClusters.get? i = some b →
    ∀ defaultProduct last, ∃ a, (Topic.gslb b.name).answer defaultProduct now last t = .ok a
  hostTable : ∀ defaultProduct : Option String,
    (∀ p, defaultProduct = some p → ∃ i product, t.products.get? i = some product ∧
      product.name = p) →
    ∀ last, ∃ a, Topic.hostTable.answer defaultProduct now last t = .ok a
  missing : ∀ (topic : Topic) defaultProduct f, topic.missing? defaultProduct t = some f →
    ∀ last, topic.answer defaultProduct now last t = .error f

theorem Consistent.exportable {k : Nat} (hc : Consistent t) (hk : Kept k t) (hroom : k < 2 ^ 63)
    {now : Instant} (hyears : Version.InYears now) : Exportable now t where
  fixed := by
    intro topic htopic defaultProduct last
    refine Topic.answer_total hc hk hroom hyears ?_ last
    simp only [List.mem_cons, List.not_mem_nil, or_false] at htopic
    rcases htopic with rfl | rfl | rfl | rfl <;> rfl
  gslb := by
    intro i b hb defaultProduct last
    refine Topic.answer_total hc hk hroom hyears ?_ last
    exact if_pos (hc.numbered.mem_fleet.2 ⟨i, b, hb, rfl⟩)
  hostTable := by
    intro defaultProduct hdefault last
    refine Topic.answer_total hc hk hroom hyears ?_ last
    rw [Topic.missing?, Option.map_eq_none_iff, Option.filter_eq_none_iff]
    intro p hp
    obtain ⟨i, product, hget, rfl⟩ := hdefault p hp
    have htenant : product.name ∈ tenants t :=
      List.mem_map.2 ⟨product, SortedMap.mem_values.2 ⟨i, hget⟩, rfl⟩
    simpa using htenant
  missing := fun topic defaultProduct f hmissing last =>
    Topic.answer_missing hc hmissing now last

/-- After every run each file of something that exists can be exported, and no call of a manager,
exports included, reports dirty data. -/
theorem run_exportable (events : List Event) (hyears : ∀ e ∈ events, Version.InYears e.now)
    (hexports : events.countP (·.topic?.isSome) < 2 ^ 63) :
    (∀ now, Version.InYears now → Exportable now (start.run events)) ∧
      ∀ settings now c message,
        ((start.run events).perform (Call.operation settings now c)).1 ≠
          .error (.dirtyData message) := by
  have hc : (start.run events).Consistent := Reachable.consistent ⟨events, rfl⟩
  have hroom : 0 + events.countP (·.topic?.isSome) < 2 ^ 63 := by rwa [Nat.zero_add]
  have hk := kept_start.run events hyears hroom
  refine ⟨fun now hnow => hc.exportable hk hroom hnow, ?_⟩
  intro settings now c message hdirty
  have hclean : (Fault.dirtyData message).isDirty = false := by
    by_cases hexport : ∃ name last, c = .exportTopic name last
    · obtain ⟨name, last, rfl⟩ := hexport
      exact exportTopic_clean hc hk.disciplined hdirty
    · refine Call.operation_clean hc settings now (fun name last heq => ?_) hdirty
      exact hexport ⟨name, last, heq⟩
  cases hclean

def exportedFleet : List Event :=
  [.call {} ⟨1704067200000000⟩ (.exportTopic "host_table" none),
    .publish ⟨1704067200000000⟩ (.known none .clusterTable),
    .call {} ⟨1672531200000000⟩ (.createDomain "BFE" ⟨"status.example", false, false⟩),
    .call {} ⟨1672531200000000⟩ (.exportTopic "host_table" (some "20240101000000000")),
    .call {} ⟨1672531200000000⟩ (.deleteDomain "BFE" "status.example")] ++ routedFleet

theorem exportedFleet_exportable :
    (∀ e ∈ exportedFleet, Version.InYears e.now) ∧
      exportedFleet.countP (·.topic?.isSome) < 2 ^ 63 ∧
      Exportable ⟨1672531200000000⟩ (start.run exportedFleet) ∧
      (∃ a, (Topic.gslb "bfe-a").answer none ⟨1672531200000000⟩ none (start.run exportedFleet) =
        .ok a) ∧
      ∀ c message, ((start.run exportedFleet).perform (Call.operation {} ⟨0⟩ c)).1 ≠
        .error (.dirtyData message) := by
  have hyears : ∀ e ∈ exportedFleet, Version.InYears e.now := by decide +kernel
  have hexports : exportedFleet.countP (·.topic?.isSome) < 2 ^ 63 := by decide +kernel
  have hnow : Version.InYears ⟨1672531200000000⟩ := by decide +kernel
  obtain ⟨hexportable, hclean⟩ := run_exportable exportedFleet hyears hexports
  have hbfe : (start.run exportedFleet).bfeClusters.get? ⟨8⟩ =
      some ⟨⟨8⟩, "bfe-a", ⟨5⟩, 0, true⟩ := by decide +kernel
  refine ⟨hyears, hexports, hexportable _ hnow, ?_, hclean {} ⟨0⟩⟩
  exact (hexportable _ hnow).gslb _ _ hbfe none none

end Store.Tables
end FleetControl
