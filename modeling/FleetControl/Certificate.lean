import FleetControl.Id
import FleetControl.Validation

/-!
Server certificates. Only the paths of their files are kept; the files lie on the load balancers.
-/

namespace FleetControl

structure Certificate where
  id : CertificateId
  name : String
  description : String
  isDefault : Bool
  certFilePath : String
  keyFilePath : String
  expiredDate : String
  deriving DecidableEq, Repr

namespace Certificate

instance : Json.Encode Certificate where
  encode c := .obj [("id", encode c.id), ("name", encode c.name),
    ("description", encode c.description), ("is_default", encode c.isDefault),
    ("cert_file_path", encode c.certFilePath), ("key_file_path", encode c.keyFilePath),
    ("expired_date", encode c.expiredDate)]

structure Draft where
  name : String
  description : String
  isDefault : Bool
  certFilePath : String
  keyFilePath : String
  expiredDate : String
  deriving DecidableEq, Repr

def Draft.withId (d : Draft) (id : CertificateId) : Certificate :=
  ⟨id, d.name, d.description, d.isDefault, d.certFilePath, d.keyFilePath, d.expiredDate⟩

open Json.RecordReader in
def Draft.ofJson? : Json → Option Draft :=
  Json.record? do
    return ⟨← required "name", ← defaulted "description" "", ← defaulted "is_default" false,
      ← required "cert_file_path", ← required "key_file_path", ← defaulted "expired_date" ""⟩

def Draft.findings (d : Draft) : Findings :=
  .ofField "name" (Validation.entityName d.name) ++
  .ofField "description" (Validation.length none (some 1024) none d.description) ++
  .ofField "cert_file_path"
    (Validation.length (some 1) none (some "Certificate file path is required") d.certFilePath) ++
  .ofField "key_file_path"
    (Validation.length (some 1) none (some "Key file path is required") d.keyFilePath)

end Certificate
end FleetControl
