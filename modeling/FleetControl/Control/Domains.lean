import FleetControl.Control.Lookup

/-!
Management of domains. Names are stored in normal form and are unique across all products, wildcards
and what they cover included.
-/

namespace FleetControl.Control.Domains

open Store Work

def clashFault (name : String) (clash : Domain) : Fault :=
  .alreadyExists "Domain"
    (if clash.name = name then name else name ++ " (overlaps " ++ clash.name ++ ")")

def create (productName : String) (proposal : Domain.Proposal) : Operation Domain :=
  .guarded proposal.findings.refusal? <| .update do
    let name := Hostname.normalize proposal.name
    let product ← requireProduct productName
    let existing ← ask (.fetchDomains {})
    match existing.find? fun d => Hostname.conflicts d.name name with
    | some clash => .fail (clashFault name clash)
    | none =>
      ask (.createDomain
        ⟨name, product.id, proposal.usingAdvancedRedirect, proposal.usingAdvancedHsts⟩)

def tlsPolicyFault (d : Domain) : Fault :=
  .dependentUnready
    ("Domain '" ++ d.name ++ "' carries an HTTPS redirect or HSTS policy; remove it first")

def stillRouted (d : Domain) : Fault :=
  .dependentUnready ("Domain '" ++ d.name ++ "' is still used by route rules")

def delete (productName domainName : String) : Operation Unit :=
  .update do
    let name := Hostname.normalize domainName
    let product ← requireProduct productName
    let found ← ask (.fetchDomains { productId := some product.id, name := some name })
    let domain ← require (.notExist "Domain" name) found.head?
    refuseIf (tlsPolicyFault domain) domain.usedByTlsPolicy
    let routed ← hostInRules domain.name
    refuseIf (stillRouted domain) routed
    ask (.deleteDomain domain.id)

def fetchAll (productName : String) : Operation (List Domain) :=
  .query do
    let product ← requireProduct productName
    ask (.fetchDomains { productId := some product.id })

end FleetControl.Control.Domains
