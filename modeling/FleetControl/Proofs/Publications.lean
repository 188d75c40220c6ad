import FleetControl.Proofs.Exporters
import FleetControl.Proofs.Splitting

/-!
Publications. Whatever has a file and a topic can be exported; the topics of the control plane are
among them, and the export of a topic by its name is the export of its file.
-/

namespace FleetControl

/-- Files whose version is a field of its own. -/
class LawfulVersioned (α : Type) [Versioned α] : Prop where
  version_setVersion : ∀ (v : String) (file : α),
    Versioned.version (Versioned.setVersion v file) = v
  setVersion_setVersion : ∀ (v w : String) (file : α),
    Versioned.setVersion v (Versioned.setVersion w file) = Versioned.setVersion v file

instance : LawfulVersioned Files.RouteTable := ⟨fun _ _ => rfl, fun _ _ _ => rfl⟩

instance : LawfulVersioned Files.HostTable := ⟨fun _ _ => rfl, fun _ _ _ => rfl⟩

instance : LawfulVersioned Files.ClusterTable := ⟨fun _ _ => rfl, fun _ _ _ => rfl⟩

instance : LawfulVersioned Files.InstanceTable := ⟨fun _ _ => rfl, fun _ _ _ => rfl⟩

instance : LawfulVersioned Files.ServerCerts := ⟨fun _ _ => rfl, fun _ _ _ => rfl⟩

instance : LawfulVersioned Files.Gslb := ⟨fun _ _ => rfl, fun _ _ _ => rfl⟩

namespace Export

variable {α : Type} [Versioned α] [Json.Encode α]

theorem signature_setVersion [LawfulVersioned α] (v : String) (file : α) :
    signature (Versioned.setVersion v file) = signature file := by
  rw [signature, LawfulVersioned.setVersion_setVersion, signature]

theorem perform_asJson (now : Instant) (e : Exporter α) (last : Option String) (t : Store.Tables) :
    t.perform (asJson (exportIfChanged now e last)) =
      ((t.perform (exportFile now e)).1.map fun file => (ifChanged last file).map encode,
        (t.perform (exportFile now e)).2) := by
  rw [asJson, exportIfChanged, perform_map, perform_map]
  cases (t.perform (exportFile now e)).1 <;> rfl

end Export

namespace Store

/-- Something to export: any kind of file whose exporter keeps to reading. -/
structure Publication where
  File : Type
  [versioned : Versioned File]
  [encoded : Json.Encode File]
  exporter : Export.Exporter File
  fetches : exporter.generate.Only (·.fetches = true)

attribute [instance] Publication.versioned Publication.encoded

namespace Publication

def known (defaultProduct : Option String) : Export.Topic → Publication
  | .routeRule => ⟨Files.RouteTable, Export.routeTable, Export.routeTable_fetches⟩
  | .hostTable =>
    ⟨Files.HostTable, Export.hostTable defaultProduct, Export.hostTable_fetches defaultProduct⟩
  | .clusterTable => ⟨Files.ClusterTable, Export.clusterTable, Export.clusterTable_fetches⟩
  | .instanceTable => ⟨Files.InstanceTable, Export.instanceTable, Export.instanceTable_fetches⟩
  | .certificate => ⟨Files.ServerCerts, Export.serverCerts, Export.serverCerts_fetches⟩
  | .gslb bfe => ⟨Files.Gslb, Export.gslb bfe, Export.gslb_fetches bfe⟩

instance (defaultProduct : Option String) (topic : Export.Topic) :
    LawfulVersioned (known defaultProduct topic).File :=
  match topic with
  | .routeRule => inferInstanceAs (LawfulVersioned Files.RouteTable)
  | .hostTable => inferInstanceAs (LawfulVersioned Files.HostTable)
  | .clusterTable => inferInstanceAs (LawfulVersioned Files.ClusterTable)
  | .instanceTable => inferInstanceAs (LawfulVersioned Files.InstanceTable)
  | .certificate => inferInstanceAs (LawfulVersioned Files.ServerCerts)
  | .gslb _ => inferInstanceAs (LawfulVersioned Files.Gslb)

theorem known_topic (defaultProduct : Option String) {name : String} {topic : Export.Topic}
    (h : Export.Topic.ofName? name = some topic) :
    (known defaultProduct topic).exporter.topic = name := by
  rw [Export.Topic.ofName?] at h
  split at h
  · rename_i found hfound
    cases h
    obtain ⟨before, after, hfixed, -⟩ := List.lookup_eq_some_iff.1 hfound
    have hmem : (name, topic) ∈ Export.Topic.fixed := by
      rw [hfixed]
      exact List.mem_append_right before List.mem_cons_self
    simp only [Export.Topic.fixed, List.mem_cons, Prod.mk.injEq, List.not_mem_nil, or_false] at hmem
    rcases hmem with ⟨rfl, rfl⟩ | ⟨rfl, rfl⟩ | ⟨rfl, rfl⟩ | ⟨rfl, rfl⟩ | ⟨rfl, rfl⟩ <;> rfl
  · split at h
    · rename_i c cs hrest
      cases h
      have hname : name.toList = "gslb.".toList ++ (c :: cs) := Text.isPrefixOf?_eq_some.1 hrest
      change "gslb." ++ String.ofList (c :: cs) = name
      rw [← String.toList_inj, String.toList_append, hname]
      exact congrArg ("gslb.".toList ++ ·) String.toList_ofList
    · cases h

theorem perform_exportKnown (defaultProduct : Option String) (now : Instant) (last : Option String)
    (topic : Export.Topic) (t : Tables) :
    t.perform (Export.exportKnown defaultProduct now last topic) =
      ((t.perform (Export.exportFile now (known defaultProduct topic).exporter)).1.map fun file =>
          (Export.ifChanged last file).map encode,
        (t.perform (Export.exportFile now (known defaultProduct topic).exporter)).2) := by
  cases topic with
  | routeRule => exact Export.perform_asJson now Export.routeTable last t
  | hostTable => exact Export.perform_asJson now (Export.hostTable defaultProduct) last t
  | clusterTable => exact Export.perform_asJson now Export.clusterTable last t
  | instanceTable => exact Export.perform_asJson now Export.instanceTable last t
  | certificate => exact Export.perform_asJson now Export.serverCerts last t
  | gslb bfe => exact Export.perform_asJson now (Export.gslb bfe) last t

end Publication
end Store
end FleetControl
