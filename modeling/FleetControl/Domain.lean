import FleetControl.Hostname
import FleetControl.Id
import FleetControl.Validation

/-!
Domains, the hostnames that products own.
-/

namespace FleetControl

structure Domain where
  id : DomainId
  name : String
  productId : ProductId
  usingAdvancedRedirect : Bool
  usingAdvancedHsts : Bool
  deriving DecidableEq, Repr

namespace Domain

instance : Json.Encode Domain where
  encode d := .obj [("id", encode d.id), ("name", encode d.name),
    ("product_id", encode d.productId), ("using_advanced_redirect", encode d.usingAdvancedRedirect),
    ("using_advanced_hsts", encode d.usingAdvancedHsts)]

/-- An HTTPS redirect or a strict transport policy hangs on the domain, whatever the route rules. -/
def usedByTlsPolicy (d : Domain) : Bool := d.usingAdvancedRedirect || d.usingAdvancedHsts

structure Draft where
  name : String
  productId : ProductId
  usingAdvancedRedirect : Bool
  usingAdvancedHsts : Bool
  deriving DecidableEq, Repr

def Draft.withId (d : Draft) (id : DomainId) : Domain :=
  ⟨id, d.name, d.productId, d.usingAdvancedRedirect, d.usingAdvancedHsts⟩

structure Proposal where
  name : String
  usingAdvancedRedirect : Bool
  usingAdvancedHsts : Bool
  deriving DecidableEq, Repr

open Json.RecordReader in
def Proposal.ofJson? : Json → Option Proposal :=
  Json.record? do
    return ⟨← required "name", ← defaulted "using_advanced_redirect" false,
      ← defaulted "using_advanced_hsts" false⟩

def nameObjection (s : String) : Option Objection :=
  if Hostname.isValid s then none
  else some ⟨"invalid_hostname", some "must be a hostname, optionally prefixed with '*.'"⟩

def Proposal.findings (p : Proposal) : Findings := .ofField "name" (nameObjection p.name)

end Domain
end FleetControl
