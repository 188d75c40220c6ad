import FleetControl.Proofs.Json.Reading
import FleetControl.Proofs.Unchanged

/-!
Exported files read again. A consumer that has only the text of a file gets the file back from it,
and signs it as the control plane did: what is read, under the version zero, has the signature of the
last row of its topic.
-/

namespace FleetControl

namespace Files

open Json

variable {depth : Nat}

instance : Readable (depth + 1) BackendConf := ⟨fun _ => readable_obj (by simp)⟩

instance : Readable (depth + 1) CheckConf := ⟨fun _ => readable_obj (by simp)⟩

instance : Readable (depth + 1) HashConf :=
  ⟨fun c => readable_obj (by cases c.hashHeader <;> simp)⟩

instance : Readable (depth + 2) GslbBasicConf := ⟨fun _ => readable_obj (by simp)⟩

instance : Readable (depth + 1) ClusterBasicConf := ⟨fun _ => readable_obj (by simp)⟩

instance : Readable (depth + 3) ClusterConf := ⟨fun _ => readable_obj (by simp)⟩

instance : Readable (depth + 5) ClusterTable := ⟨fun _ => readable_obj (by simp)⟩

instance : Readable (depth + 1) InstanceConf := ⟨fun _ => readable_obj (by simp)⟩

instance : Readable (depth + 5) InstanceTable := ⟨fun _ => readable_obj (by simp)⟩

instance : Readable (depth + 3) Gslb := ⟨fun _ => readable_obj (by simp)⟩

instance : Readable (depth + 3) HostTable :=
  ⟨fun f => readable_obj (by cases f.defaultProduct <;> simp)⟩

instance : Readable (depth + 2) BasicRoute := ⟨fun _ => readable_obj (by simp)⟩

instance : Readable (depth + 1) AdvancedRoute := ⟨fun _ => readable_obj (by simp)⟩

instance : Readable (depth + 5) RouteTable := ⟨fun _ => readable_obj (by simp)⟩

instance : Readable (depth + 1) CertFiles :=
  ⟨fun c => readable_obj (by cases c.ocspResponseFile <;> simp)⟩

instance : Readable (depth + 3) ServerCertConf := ⟨fun _ => readable_obj (by simp)⟩

instance : Readable (depth + 4) ServerCerts := ⟨fun _ => readable_obj (by simp)⟩

end Files

namespace Export.Topic

open Store Store.Work Json

instance (topic : Topic) : Readable maxDepth topic.File :=
  match topic with
  | routeRule => inferInstanceAs (Readable (122 + 5) Files.RouteTable)
  | hostTable => inferInstanceAs (Readable (124 + 3) Files.HostTable)
  | clusterTable => inferInstanceAs (Readable (122 + 5) Files.ClusterTable)
  | instanceTable => inferInstanceAs (Readable (122 + 5) Files.InstanceTable)
  | certificate => inferInstanceAs (Readable (123 + 4) Files.ServerCerts)
  | gslb _ => inferInstanceAs (Readable (124 + 3) Files.Gslb)

def reread? (topic : Topic) (s : String) : Option topic.File := (ofText? s).bind decode?

/-- The last row has the version of the file, and the signature that is computed from any text of it
once the version read there is put back to zero. -/
def Reverifies (topic : Topic) (rows : List ConfigVersion) (file : topic.File) : Prop :=
  ∃ row, rows.getLast? = some row ∧ row.version = Versioned.version file ∧
    ∀ s ∈ texts file, ∃ read, topic.reread? s = some read ∧
      Version.sign (encode (Versioned.setVersion "0" read)) = row.signature

variable {topic : Topic} {defaultProduct : Option String} {now : Instant} {t : Tables}
  {file : topic.File}

theorem reread?_eq {s : String} (h : s ∈ texts file) : topic.reread? s = some file :=
  decode_ofText? h

theorem reverifies_of_exportFile
    (h : (t.perform (exportFile now (topic.exporter defaultProduct))).1 = .ok file) :
    topic.Reverifies ((t.perform (exportFile now (topic.exporter defaultProduct))).2.history
      (topic.exporter defaultProduct).topic) file := by
  obtain ⟨-, -, -, row, hlast, hversion, hsignature⟩ :=
    exportFile_answers (topic.exporter_fetches defaultProduct) h
  refine ⟨row, hlast, hversion, fun s hs => ⟨file, reread?_eq hs, ?_⟩⟩
  rw [hsignature, signature, Version.zero]

theorem publication?_of_name {settings : ControlSettings} {name : String} {last : Option String}
    (h : ofName? name = some topic) :
    (Event.call settings now (.exportTopic name last)).publication? =
      some (.known settings.defaultProduct topic) := by
  rw [Event.publication?, h, Option.map_some]

theorem exportFile_of_name {settings : ControlSettings} {name : String} {last : Option String}
    {json : Json}
    (h : (t.perform (Call.operation settings now (.exportTopic name last))).1 = .ok (some json)) :
    ∃ topic : Topic, ∃ file : topic.File, ofName? name = some topic ∧ json = encode file ∧
      (t.perform (exportFile now (topic.exporter settings.defaultProduct))).1 = .ok file := by
  cases hname : ofName? name with
  | none =>
    rw [Call.operation, exportTopic, hname] at h
    cases h
  | some topic =>
    rw [Tables.perform_exportByName (publication?_of_name hname), answer_eq] at h
    rcases hfile : (t.perform (exportFile now (topic.exporter settings.defaultProduct))).1 with
      f | file
    · rw [hfile] at h
      cases h
    · rw [hfile] at h
      simp only [Except.map, Except.ok.injEq, Option.map_eq_some_iff] at h
      obtain ⟨answered, hanswered, rfl⟩ := h
      rw [ifChanged] at hanswered
      split at hanswered
      · cases hanswered
      · cases hanswered
        exact ⟨topic, file, rfl, rfl, hfile⟩

/-- Every file is read back from its JSON, and every exported one is verified against the ledger by
what is read from its text. -/
theorem exports_reverified :
    (∀ (topic : Topic) (file : topic.File), decode? (encode file) = some file ∧
      ∀ s ∈ texts file, topic.reread? s = some file) ∧
    (∀ (topic : Topic) (defaultProduct : Option String) (now : Instant) (t : Tables)
        (file : topic.File),
      (t.perform (exportFile now (topic.exporter defaultProduct))).1 = .ok file →
      topic.Reverifies ((t.perform (exportFile now (topic.exporter defaultProduct))).2.history
        (topic.exporter defaultProduct).topic) file) ∧
    ∀ (settings : ControlSettings) (now : Instant) (name : String) (last : Option String)
        (t : Tables) (json : Json),
      (t.perform (Call.operation settings now (.exportTopic name last))).1 = .ok (some json) →
      ∃ topic : Topic, ∃ file : topic.File, ofName? name = some topic ∧ json = encode file ∧
        topic.Reverifies ((t.after (.call settings now (.exportTopic name last))).history name)
          file := by
  refine ⟨?_, ?_, ?_⟩
  · intro topic file
    exact ⟨LawfulCodec.decode rearranges_id file, fun s hs => reread?_eq hs⟩
  · intro topic defaultProduct now t file h
    exact reverifies_of_exportFile h
  · intro settings now name last t json h
    obtain ⟨topic, file, hname, hjson, hfile⟩ := exportFile_of_name h
    have htopic : (topic.exporter settings.defaultProduct).topic = name := by
      have hknown := Publication.known_topic settings.defaultProduct hname
      rwa [known_eq] at hknown
    refine ⟨topic, file, hname, hjson, ?_⟩
    rw [Tables.after_topic (publication?_of_name hname), ← htopic]
    exact reverifies_of_exportFile hfile

def twoDomains : List Event :=
  [.call {} ⟨0⟩ (.createDomain "BFE" ⟨"status.example", false, false⟩),
    .call {} ⟨0⟩ (.createDomain "BFE" ⟨"shop.example", false, false⟩)]

def twoHosts (version : String) : Files.HostTable :=
  ⟨version, some "BFE", .ofList [("BFE", ["shop.example", "status.example"])],
    .ofList [("BFE", ["BFE"])]⟩

theorem twoHosts_generated : ((Export.hostTable (some "BFE")).generate.run Tables.answer
    (Tables.start.run twoDomains)).1 = .ok (twoHosts "") := by
  have hproducts : Tables.select (Tables.start.run twoDomains).products (ProductFilter.admits {})
      (·.name) = [Product.builtin] := by decide +kernel
  have hnames : productNames.run Tables.answer (Tables.start.run twoDomains) =
      (.ok (.ofList [(⟨1⟩, "BFE")]), Tables.start.run twoDomains) := by
    rw [productNames, bind_eq, run_bind, ask, Work.run, Tables.answer, hproducts]
    rfl
  have hknown : (some "BFE").filter (fun p =>
      !(SortedMap.ofList [((⟨1⟩ : ProductId), "BFE")]).values.contains p) = none := by decide +kernel
  have hvalues : (Tables.start.run twoDomains).domains.values =
      [⟨⟨2⟩, "status.example", ⟨1⟩, false, false⟩, ⟨⟨3⟩, "shop.example", ⟨1⟩, false, false⟩] := by
    decide +kernel
  have hdomains : Tables.select (Tables.start.run twoDomains).domains (DomainFilter.admits {})
      (·.name) =
      [⟨⟨3⟩, "shop.example", ⟨1⟩, false, false⟩, ⟨⟨2⟩, "status.example", ⟨1⟩, false, false⟩] := by
    simp [Tables.select, hvalues, DomainFilter.admits, Tables.sortByName, List.mergeSort]
  rw [Export.hostTable, bind_eq, run_bind, hnames]
  dsimp only
  rw [hknown]
  simp only [bind_eq, run_bind, ask, Work.run, Tables.answer, hdomains]
  decide +kernel

/-- The consumer of the printed file verifies the two hosts, and would not verify one of them alone. -/
theorem twoHosts_reverified :
    let settings : ControlSettings := { defaultProduct := some "BFE" }
    let t := Tables.start.run twoDomains
    let hosts := twoHosts "20240101000000000"
    let e : Event := .call settings ⟨1704067200000000⟩ (.exportTopic "host_table" none)
    (t.perform (Call.operation settings e.now (.exportTopic "host_table" none))).1 =
        .ok (some (encode hosts)) ∧
      ∃ row, ((t.after e).history "host_table").getLast? = some row ∧
        ∃ read : Files.HostTable,
          (ofText? (encode hosts).canonical.pretty).bind decode? = some read ∧
            read.hosts.get? "BFE" = some ["shop.example", "status.example"] ∧
            Version.sign (encode { read with version := "0" }) = row.signature ∧
            Version.sign (encode { read with
              version := "0", hosts := .ofList [("BFE", ["shop.example"])] }) ≠ row.signature := by
  intro settings t hosts e
  have hnone : (t.history "host_table").getLast? = none := by decide +kernel
  have hmint : Version.mint e.now ((t.history "host_table").getLast?.map (·.version)) =
      .ok "20240101000000000" := by
    rw [hnone]
    decide +kernel
  have hfresh : ∀ last, (t.history "host_table").getLast? = some last →
      last.signature ≠ signature (twoHosts "") := by
    intro last hlast
    rw [hnone] at hlast
    cases hlast
  have hchoose := chooseVersion_yields_iff.2 (.minted hfresh hmint)
  have hfile : (t.perform (exportFile e.now (Topic.exporter (some "BFE") .hostTable))).1 =
      .ok hosts :=
    congrArg Prod.fst
      (perform_exportFile (hostTable.exporter_fetches (some "BFE")) twoHosts_generated hchoose)
  obtain ⟨row, hlast, -, hread⟩ :=
    exports_reverified.2.1 .hostTable (some "BFE") e.now t hosts hfile
  have hprinted : (encode hosts).canonical.pretty ∈ texts hosts := by simp [texts]
  obtain ⟨read, hdecoded, hsigned⟩ := hread _ hprinted
  have hsame : reread? .hostTable (encode hosts).canonical.pretty = some hosts :=
    reread?_eq hprinted
  obtain rfl : hosts = read := Option.some.inj (hsame.symm.trans hdecoded)
  refine ⟨?_, row, ?_, hosts, hdecoded, ?_, hsigned, ?_⟩
  · rw [Tables.perform_exportByName (publication?_of_name rfl), answer_eq, hfile]
    rfl
  · rw [Tables.after_topic (publication?_of_name rfl)]
    exact hlast
  · decide +kernel
  · rw [← hsigned]
    decide +kernel

end Export.Topic
end FleetControl
