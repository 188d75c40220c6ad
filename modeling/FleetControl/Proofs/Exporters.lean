import FleetControl.Export.Topic
import FleetControl.Proofs.Reads

/-!
Exports on tables. The exporters of the six kinds of files only fetch; an export adds at most one
row to the ledger and changes nothing else.
-/

namespace FleetControl.Export

open Store Store.Work Store.Tables Control

theorem productNames_fetches : productNames.Only (·.fetches = true) :=
  only_bind (only_ask rfl) fun _ => only_pure _

theorem hostTable_fetches (defaultProduct : Option String) :
    (hostTable defaultProduct).generate.Only (·.fetches = true) := by
  refine only_bind productNames_fetches fun names => ?_
  split
  · exact only_fail _
  · exact only_bind (only_ask rfl) fun _ => only_bind (only_ofExcept _) fun _ => only_pure _

theorem routeTable_fetches : routeTable.generate.Only (·.fetches = true) :=
  only_bind productNames_fetches fun _ => only_bind (only_ask rfl) fun _ =>
    only_bind (only_ofExcept _) fun _ => only_pure _

theorem clusterTable_fetches : clusterTable.generate.Only (·.fetches = true) :=
  only_bind (only_ask rfl) fun _ => only_pure _

theorem instanceTable_fetches : instanceTable.generate.Only (·.fetches = true) := by
  refine only_bind (only_ask rfl) fun clusters => only_bind (only_forAll (fun c => ?_) clusters)
    fun _ => only_pure _
  exact only_bind (only_ask rfl) fun records => only_bind (resolveSubClusters_fetches records)
    fun _ => only_bind (only_ofExcept _) fun _ => only_pure _

theorem gslb_fetches (bfe : String) : (gslb bfe).generate.Only (·.fetches = true) := by
  refine only_bind (only_ask rfl) fun known => only_bind (only_refuseIf _ _) fun _ =>
    only_bind (only_ask rfl) fun clusters => only_bind (only_forAll (fun c => ?_) clusters)
    fun _ => only_pure _
  exact only_bind (only_ask rfl) fun _ => only_bind (only_require _ _) fun _ => only_pure _

theorem serverCerts_fetches : serverCerts.generate.Only (·.fetches = true) :=
  only_bind (only_ask rfl) fun _ => only_pure _

/-! Exports. -/

/-- The version a file of that signature gets, and the tables with its row: the last version of the
topic for the content it was given to, or else a newly minted one. -/
inductive Published (now : Instant) (topic signature : String) (t : Tables) :
    String → Tables → Prop where
  | reused {last : ConfigVersion} (latest : (t.history topic).getLast? = some last)
      (same : last.signature = signature) : Published now topic signature t last.version t
  | minted {version : String}
      (changed : ∀ last, (t.history topic).getLast? = some last → last.signature ≠ signature)
      (fresh : Version.mint now ((t.history topic).getLast?.map (·.version)) = .ok version) :
      Published now topic signature t version
        { t with ledger := t.ledger ++ [⟨topic, signature, version, now⟩] }

variable {t t' : Tables} {now : Instant} {topic signature : String}

theorem chooseVersion_same {last : ConfigVersion} (h : last.signature = signature) :
    chooseVersion now topic signature (some last) = .done last.version := if_pos h

theorem chooseVersion_fresh {latest : Option ConfigVersion}
    (h : ∀ last, latest = some last → last.signature ≠ signature) :
    chooseVersion now topic signature latest =
      chooseVersion.mintRow now topic signature (latest.map (·.version)) := by
  cases latest with
  | none => rfl
  | some last => exact if_neg (h last rfl)

theorem mintRow_yields_iff {last : Option String} {version : String} :
    Yields answer t (chooseVersion.mintRow now topic signature last) version t' ↔
      Version.mint now last = .ok version ∧
        t' = { t with ledger := t.ledger ++ [⟨topic, signature, version, now⟩] } := by
  simp only [chooseVersion.mintRow, yields_bind, yields_ofExcept, mapError_eq_ok, yields_ask,
    yields_pure]
  constructor
  · rintro ⟨_, _, ⟨hmint, rfl⟩, _, _, hput, rfl, rfl⟩
    cases hput
    exact ⟨hmint, rfl⟩
  · rintro ⟨hmint, rfl⟩
    exact ⟨version, t, ⟨hmint, rfl⟩, (), _, rfl, rfl, rfl⟩

theorem chooseVersion_yields_iff {version : String} :
    Yields answer t (chooseVersion now topic signature (t.history topic).getLast?) version t' ↔
      Published now topic signature t version t' := by
  constructor
  · intro hw
    by_cases hfresh : ∀ last, (t.history topic).getLast? = some last → last.signature ≠ signature
    · rw [chooseVersion_fresh hfresh] at hw
      obtain ⟨hmint, rfl⟩ := mintRow_yields_iff.1 hw
      exact .minted hfresh hmint
    · push Not at hfresh
      obtain ⟨last, hlast, hsame⟩ := hfresh
      rw [hlast, chooseVersion_same hsame] at hw
      obtain ⟨rfl, rfl⟩ := yields_done.1 hw
      exact .reused hlast hsame
  · rintro (⟨hlast, hsame⟩ | ⟨hfresh, hmint⟩)
    · rw [hlast, chooseVersion_same hsame]
      exact yields_done.2 ⟨rfl, rfl⟩
    · rw [chooseVersion_fresh hfresh]
      exact mintRow_yields_iff.2 ⟨hmint, rfl⟩

theorem perform_map {α β : Type} (g : α → β) (op : Operation α) (t : Tables) :
    t.perform (op.map g) = ((t.perform op).1.map g, (t.perform op).2) := by
  cases op with
  | refuse f => rfl
  | query w =>
    rw [Operation.map, perform, run_bind, perform]
    rcases w.run answer t with ⟨x, u⟩
    cases x <;> rfl
  | update w =>
    rw [Operation.map, perform, run_bind, perform]
    rcases w.run answer t with ⟨x, u⟩
    cases x <;> rfl

variable {α : Type} [Versioned α] [Json.Encode α] {e : Exporter α}

/-- An export fails and changes nothing, or it answers the generated file under a version of its
topic. -/
theorem exportFile_cases (he : e.generate.Only (·.fetches = true)) (now : Instant) (t : Tables) :
    (∃ f, t.perform (exportFile now e) = (.error f, t)) ∨
      ∃ file version t', Yields answer t e.generate file t ∧
        Published now e.topic (Export.signature file) t version t' ∧
        t.perform (exportFile now e) = (.ok (Versioned.setVersion version file), t') := by
  rw [exportFile, perform]
  split
  · rename_i file t' hw
    refine Or.inr ?_
    obtain ⟨_, _, hlock, file, _, hfile, latest, _, hlatest, version, _, hversion, rfl, rfl⟩ : _ := by
      simpa only [yields_bind, yields_ask, yields_pure] using
        show Yields answer t _ file t' from hw
    cases hlock
    obtain rfl := fetches_yields he hfile
    cases hlatest
    exact ⟨file, version, _, hfile, chooseVersion_yields_iff.1 hversion, rfl⟩
  · exact Or.inl ⟨_, rfl⟩

theorem exportFile_ledger (he : e.generate.Only (·.fetches = true)) (now : Instant) (t : Tables) :
    (t.perform (exportFile now e)).2 = t ∨
      ∃ row, (t.perform (exportFile now e)).2 = { t with ledger := t.ledger ++ [row] } := by
  rcases exportFile_cases he now t with ⟨f, h⟩ | ⟨file, version, t', -, hpub, h⟩
  · exact Or.inl (by rw [h])
  · rw [h]
    cases hpub with
    | reused => exact Or.inl rfl
    | minted => exact Or.inr ⟨_, rfl⟩

end FleetControl.Export
