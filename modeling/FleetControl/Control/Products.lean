import FleetControl.Control.Lookup

/-!
Management of products. A product can be deleted once it owns nothing but route rules.
-/

namespace FleetControl.Control.Products

open Store Work

def create (draft : Product.Draft) : Operation Product :=
  .guarded draft.findings.refusal? <| .update do
    let same ← ask (.fetchProducts { name := some draft.name })
    refuseIf (.alreadyExists "Product" draft.name) !same.isEmpty
    ask (.createProduct draft)

def update (name : String) (change : Product.Change) : Operation Product :=
  .guarded change.findings.refusal? <| .update do
    let product ← requireProduct name
    refuseIf (.modelViolation ("Built-in product '" ++ product.name ++ "' cannot be modified"))
      product.isBuiltin
    let changed := change.apply product
    ask (.updateProduct changed)
    return changed

def owned? (counts : List (String × Nat)) : Option (String × Nat) := counts.find? fun c => 0 < c.2

def stillOwns (product : Product) (owned : String × Nat) : Fault :=
  .modelViolation ("Product '" ++ product.name ++ "' still owns " ++
    String.ofList (Text.ofNat owned.2) ++ " " ++ owned.1 ++ "; delete them first")

def delete (name : String) : Operation Unit :=
  .update do
    let product ← requireProduct name
    refuseIf (.modelViolation ("Built-in product '" ++ product.name ++ "' cannot be deleted"))
      product.isBuiltin
    let clusters ← ask (.fetchClusters { productId := some product.id })
    let subClusters ← ask (.fetchSubClusters { productId := some product.id })
    let pools ← ask (.fetchPools { productId := some product.id })
    let domains ← ask (.fetchDomains { productId := some product.id })
    match owned? [("clusters", clusters.length), ("sub clusters", subClusters.length),
        ("pools", pools.length), ("domains", domains.length)] with
    | some owned => .fail (stillOwns product owned)
    | none =>
      ask (.deleteRouteRules product.id)
      ask (.deleteProduct product.id)

def fetch (name : String) : Operation Product := .query (requireProduct name)

def fetchAll : Operation (List Product) := .query (ask (.fetchProducts {}))

end FleetControl.Control.Products
