import FleetControl.Control.Lookup

/-!
Management of route rules. The rules of a product are replaced as a whole: their form is checked
before the unit of work begins, their hosts and clusters inside it.
-/

namespace FleetControl.Control.Routes

open Store Work

def foreignHost? (domains : List Domain) : Nat → List BasicRule → Option (Nat × String)
  | _, [] => none
  | i, r :: rest =>
    match r.hostNames.find? fun h => !domains.any fun d => Hostname.covers d.name h with
    | some host => some (i, host)
    | none => foreignHost? domains (i + 1) rest

def foreignHostFault (product : Product) (found : Nat × String) : Fault :=
  .onField ("Host '" ++ found.2 ++ "' is not a domain of product '" ++ product.name ++ "'")
    (RouteRules.Defect.indexed "basic_rules" found.1 ++ ".host_names")

/-- Clusters found so far, by name; each is read once. -/
abbrev Resolved := SortedMap String ClusterId

def resolve (ignoreReadiness : Bool) (product : Product) (name : String) (known : Resolved) :
    Work (ClusterId × Resolved) :=
  match known.get? name with
  | some id => .done (id, known)
  | none => do
    let record ← requireCluster product name
    let cluster ← assembleCluster ignoreReadiness record
    refuseIf (.dependentUnready ("Cluster '" ++ name ++ "' is not ready")) !cluster.ready
    return (cluster.id, known.insert name cluster.id)

def resolveBasic (ignoreReadiness : Bool) (product : Product) :
    List BasicRule → Resolved → Work (List BasicRule × Resolved)
  | [], known => .done ([], known)
  | r :: rest, known =>
    if Cluster.isReservedName r.clusterName then do
      let (rules, known) ← resolveBasic ignoreReadiness product rest known
      return ({ r with clusterId := none } :: rules, known)
    else do
      let (id, known) ← resolve ignoreReadiness product r.clusterName known
      let (rules, known) ← resolveBasic ignoreReadiness product rest known
      return ({ r with clusterId := some id } :: rules, known)

def resolveAdvanced (ignoreReadiness : Bool) (product : Product) :
    List AdvancedRule → Resolved → Work (List AdvancedRule)
  | [], _ => .done []
  | r :: rest, known => do
    let (id, known) ← resolve ignoreReadiness product r.clusterName known
    let rules ← resolveAdvanced ignoreReadiness product rest known
    return { r with clusterId := some id } :: rules

def replace (ignoreReadiness : Bool) (productName : String) (rules : RouteRules) :
    Operation RouteRules :=
  .guarded (rules.defect?.map RouteRules.Defect.fault) <| .update do
    let product ← requireProduct productName
    ask (.lockAdvancedRules product.id)
    let domains ← ask (.fetchDomains { productId := some product.id })
    match foreignHost? domains 0 rules.basic with
    | some found => .fail (foreignHostFault product found)
    | none =>
      let (basic, known) ← resolveBasic ignoreReadiness product rules.basic ∅
      let advanced ← resolveAdvanced ignoreReadiness product rules.advanced known
      ask (.deleteRouteRules product.id)
      ask (.createRouteRules product.id ⟨basic, advanced⟩)
      return ⟨basic, advanced⟩

def fetch (productName : String) : Operation RouteRules :=
  .query do
    let product ← requireProduct productName
    let rules ← ask (.fetchRouteRules (some product.id))
    return (rules.get? product.id).getD .empty

def clusterReferenced (productName clusterName : String) : Operation Bool :=
  .query do
    let product ← requireProduct productName
    let cluster ← requireCluster product clusterName
    clusterInRules product cluster.id

def domainReferenced (host : String) : Operation Bool := .query (hostInRules host)

end FleetControl.Control.Routes
