import FleetControl.Control.Lookup

/-!
Management of certificates. As soon as there is one, exactly one of them is the default.
-/

namespace FleetControl.Control.Certificates

open Store Work

/-- The first certificate becomes the default whether asked to or not. -/
def create (draft : Certificate.Draft) : Operation Certificate :=
  .guarded draft.findings.refusal? <| .update do
    let same ← ask (.fetchCertificates { name := some draft.name })
    refuseIf (.alreadyExists "Certificate" draft.name) !same.isEmpty
    let all ← ask (.fetchCertificates {})
    let certificate ← ask (.createCertificate { draft with isDefault := false })
    if all.isEmpty || draft.isDefault then
      ask (.setDefaultCertificate certificate.id)
      return { certificate with isDefault := true }
    else return certificate

def setDefault (name : String) : Operation Certificate :=
  .update do
    let certificate ← requireCertificate name
    ask (.setDefaultCertificate certificate.id)
    return { certificate with isDefault := true }

def stillDefault (c : Certificate) : Fault :=
  .modelViolation
    ("Certificate '" ++ c.name ++ "' is the default; choose another default before deleting it")

/-- The default can only be deleted when it is the last. -/
def delete (name : String) : Operation Unit :=
  .update do
    let certificate ← requireCertificate name
    let all ← ask (.fetchCertificates {})
    refuseIf (stillDefault certificate) (certificate.isDefault && 1 < all.length)
    ask (.deleteCertificate certificate.id)

def fetchAll : Operation (List Certificate) := .query (ask (.fetchCertificates {}))

end FleetControl.Control.Certificates
