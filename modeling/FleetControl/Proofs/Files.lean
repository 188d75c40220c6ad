import FleetControl.Proofs.Json.Codec
import FleetControl.Proofs.Publications

/-!
The files of the control plane. Each record reads back, by a codec assembled from those of its
members in the order they are read; each topic has one kind of file.
-/

namespace FleetControl.Files

open Json

instance : LawfulCodec BackendConf where
  exact c := membersExact_iff.2 (by simp)
  decode hf c := by
    refine decode_record hf ?_
    iterate 3 refine reads_bind (reads_required hf rfl) ?_
    exact reads_pure _ _ c

instance : LawfulCodec CheckConf where
  exact c := membersExact_iff.2 (by simp)
  decode hf c := by
    refine decode_record hf ?_
    iterate 6 refine reads_bind (reads_required hf rfl) ?_
    exact reads_pure _ _ c

instance : LawfulCodec HashConf where
  exact c := membersExact_iff.2 (by cases c.hashHeader <;> simp)
  decode hf c := by
    refine decode_record hf ?_
    refine reads_bind (reads_required hf (by cases c.hashHeader <;> rfl)) ?_
    refine reads_bind (reads_optional hf (a := c.hashHeader) (by cases c.hashHeader <;> rfl)) ?_
    refine reads_bind (reads_required hf (by cases c.hashHeader <;> rfl)) ?_
    exact reads_pure _ _ c

instance : LawfulCodec GslbBasicConf where
  exact c := membersExact_iff.2 (by simp)
  decode hf c := by
    refine decode_record hf ?_
    iterate 3 refine reads_bind (reads_required hf rfl) ?_
    exact reads_pure _ _ c

instance : LawfulCodec ClusterBasicConf where
  exact c := membersExact_iff.2 (by simp)
  decode hf c := by
    refine decode_record hf ?_
    iterate 7 refine reads_bind (reads_required hf rfl) ?_
    exact reads_pure _ _ c

instance : LawfulCodec ClusterConf where
  exact c := membersExact_iff.2 (by simp)
  decode hf c := by
    refine decode_record hf ?_
    iterate 4 refine reads_bind (reads_required hf rfl) ?_
    exact reads_pure _ _ c

instance : LawfulCodec ClusterTable where
  exact f := membersExact_iff.2 (by simp)
  decode hf f := by
    refine decode_record hf ?_
    iterate 2 refine reads_bind (reads_required hf rfl) ?_
    exact reads_pure _ _ f

instance : LawfulCodec InstanceConf where
  exact c := membersExact_iff.2 (by simp)
  decode hf c := by
    refine decode_record hf ?_
    iterate 4 refine reads_bind (reads_required hf rfl) ?_
    exact reads_pure _ _ c

instance : LawfulCodec InstanceTable where
  exact f := membersExact_iff.2 (by simp)
  decode hf f := by
    refine decode_record hf ?_
    iterate 2 refine reads_bind (reads_required hf rfl) ?_
    exact reads_pure _ _ f

instance : LawfulCodec Gslb where
  exact f := membersExact_iff.2 (by simp)
  decode hf f := by
    refine decode_record hf ?_
    iterate 3 refine reads_bind (reads_required hf rfl) ?_
    exact reads_pure _ _ f

instance : LawfulCodec HostTable where
  exact f := membersExact_iff.2 (by cases f.defaultProduct <;> simp)
  decode hf f := by
    refine decode_record hf ?_
    refine reads_bind (reads_required hf (by cases f.defaultProduct <;> rfl)) ?_
    refine reads_bind
      (reads_optional hf (a := f.defaultProduct) (by cases f.defaultProduct <;> rfl)) ?_
    iterate 2 refine reads_bind (reads_required hf (by cases f.defaultProduct <;> rfl)) ?_
    exact reads_pure _ _ f

instance : LawfulCodec BasicRoute where
  exact r := membersExact_iff.2 (by simp)
  decode hf r := by
    refine decode_record hf ?_
    iterate 3 refine reads_bind (reads_required hf rfl) ?_
    exact reads_pure _ _ r

instance : LawfulCodec AdvancedRoute where
  exact r := membersExact_iff.2 (by simp)
  decode hf r := by
    refine decode_record hf ?_
    iterate 2 refine reads_bind (reads_required hf rfl) ?_
    exact reads_pure _ _ r

instance : LawfulCodec RouteTable where
  exact f := membersExact_iff.2 (by simp)
  decode hf f := by
    refine decode_record hf ?_
    iterate 3 refine reads_bind (reads_required hf rfl) ?_
    exact reads_pure _ _ f

instance : LawfulCodec CertFiles where
  exact c := membersExact_iff.2 (by cases c.ocspResponseFile <;> simp)
  decode hf c := by
    refine decode_record hf ?_
    iterate 2 refine reads_bind (reads_required hf (by cases c.ocspResponseFile <;> rfl)) ?_
    refine reads_bind
      (reads_optional hf (a := c.ocspResponseFile) (by cases c.ocspResponseFile <;> rfl)) ?_
    exact reads_pure _ _ c

instance : LawfulCodec ServerCertConf where
  exact c := membersExact_iff.2 (by simp)
  decode hf c := by
    refine decode_record hf ?_
    iterate 2 refine reads_bind (reads_required hf rfl) ?_
    exact reads_pure _ _ c

instance : LawfulCodec ServerCerts where
  exact f := membersExact_iff.2 (by simp)
  decode hf f := by
    refine decode_record hf ?_
    iterate 2 refine reads_bind (reads_required hf rfl) ?_
    exact reads_pure _ _ f

end FleetControl.Files

namespace FleetControl.Export.Topic

def File : Topic → Type
  | routeRule => Files.RouteTable
  | hostTable => Files.HostTable
  | clusterTable => Files.ClusterTable
  | instanceTable => Files.InstanceTable
  | certificate => Files.ServerCerts
  | gslb _ => Files.Gslb

def exporter (defaultProduct : Option String) : (topic : Topic) → Exporter topic.File
  | routeRule => Export.routeTable
  | hostTable => Export.hostTable defaultProduct
  | clusterTable => Export.clusterTable
  | instanceTable => Export.instanceTable
  | certificate => Export.serverCerts
  | gslb bfe => Export.gslb bfe

variable (topic : Topic)

instance : Versioned topic.File :=
  match topic with
  | routeRule => inferInstanceAs (Versioned Files.RouteTable)
  | hostTable => inferInstanceAs (Versioned Files.HostTable)
  | clusterTable => inferInstanceAs (Versioned Files.ClusterTable)
  | instanceTable => inferInstanceAs (Versioned Files.InstanceTable)
  | certificate => inferInstanceAs (Versioned Files.ServerCerts)
  | gslb _ => inferInstanceAs (Versioned Files.Gslb)

instance : Json.Encode topic.File :=
  match topic with
  | routeRule => inferInstanceAs (Json.Encode Files.RouteTable)
  | hostTable => inferInstanceAs (Json.Encode Files.HostTable)
  | clusterTable => inferInstanceAs (Json.Encode Files.ClusterTable)
  | instanceTable => inferInstanceAs (Json.Encode Files.InstanceTable)
  | certificate => inferInstanceAs (Json.Encode Files.ServerCerts)
  | gslb _ => inferInstanceAs (Json.Encode Files.Gslb)

instance : Json.Decode topic.File :=
  match topic with
  | routeRule => inferInstanceAs (Json.Decode Files.RouteTable)
  | hostTable => inferInstanceAs (Json.Decode Files.HostTable)
  | clusterTable => inferInstanceAs (Json.Decode Files.ClusterTable)
  | instanceTable => inferInstanceAs (Json.Decode Files.InstanceTable)
  | certificate => inferInstanceAs (Json.Decode Files.ServerCerts)
  | gslb _ => inferInstanceAs (Json.Decode Files.Gslb)

instance : Json.LawfulCodec topic.File :=
  match topic with
  | routeRule => inferInstanceAs (Json.LawfulCodec Files.RouteTable)
  | hostTable => inferInstanceAs (Json.LawfulCodec Files.HostTable)
  | clusterTable => inferInstanceAs (Json.LawfulCodec Files.ClusterTable)
  | instanceTable => inferInstanceAs (Json.LawfulCodec Files.InstanceTable)
  | certificate => inferInstanceAs (Json.LawfulCodec Files.ServerCerts)
  | gslb _ => inferInstanceAs (Json.LawfulCodec Files.Gslb)

instance : LawfulVersioned topic.File :=
  match topic with
  | routeRule => inferInstanceAs (LawfulVersioned Files.RouteTable)
  | hostTable => inferInstanceAs (LawfulVersioned Files.HostTable)
  | clusterTable => inferInstanceAs (LawfulVersioned Files.ClusterTable)
  | instanceTable => inferInstanceAs (LawfulVersioned Files.InstanceTable)
  | certificate => inferInstanceAs (LawfulVersioned Files.ServerCerts)
  | gslb _ => inferInstanceAs (LawfulVersioned Files.Gslb)

instance : DecidableEq topic.File :=
  match topic with
  | routeRule => inferInstanceAs (DecidableEq Files.RouteTable)
  | hostTable => inferInstanceAs (DecidableEq Files.HostTable)
  | clusterTable => inferInstanceAs (DecidableEq Files.ClusterTable)
  | instanceTable => inferInstanceAs (DecidableEq Files.InstanceTable)
  | certificate => inferInstanceAs (DecidableEq Files.ServerCerts)
  | gslb _ => inferInstanceAs (DecidableEq Files.Gslb)

theorem exporter_fetches (defaultProduct : Option String) :
    (topic.exporter defaultProduct).generate.Only (·.fetches = true) :=
  match topic with
  | routeRule => Export.routeTable_fetches
  | hostTable => Export.hostTable_fetches defaultProduct
  | clusterTable => Export.clusterTable_fetches
  | instanceTable => Export.instanceTable_fetches
  | certificate => Export.serverCerts_fetches
  | gslb bfe => Export.gslb_fetches bfe

theorem exporter_topic (p q : Option String) :
    (topic.exporter p).topic = (topic.exporter q).topic := by
  cases topic <;> rfl

theorem known_eq (defaultProduct : Option String) :
    Store.Publication.known defaultProduct topic =
      ⟨topic.File, topic.exporter defaultProduct, topic.exporter_fetches defaultProduct⟩ := by
  cases topic <;> rfl

end FleetControl.Export.Topic
