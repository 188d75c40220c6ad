import FleetControl.Cluster.Basic
import FleetControl.Hostname

/-!
Route rules of a product: basic rules match on hosts and paths, advanced rules on a condition. The
advanced rules are tried in order, and the last of them has the condition that always holds.
-/

namespace FleetControl

structure BasicRule where
  hostNames : List String
  paths : List String
  clusterName : String
  /-- Found when the rule is stored; a reserved target has none. -/
  clusterId : Option ClusterId
  description : String
  deriving DecidableEq, Repr

namespace BasicRule

instance : Json.Encode BasicRule where
  encode r := .obj [("host_names", encode r.hostNames), ("paths", encode r.paths),
    ("cluster_name", encode r.clusterName), ("cluster_id", encode r.clusterId),
    ("description", encode r.description)]

open Json.RecordReader in
instance : Json.Decode BasicRule where
  decode? := Json.record? do
    return ⟨← defaulted "host_names" [], ← defaulted "paths" [], ← required "cluster_name",
      ← defaultedOptional "cluster_id", ← defaulted "description" ""⟩

end BasicRule

structure AdvancedRule where
  name : String
  expression : String
  clusterName : String
  clusterId : Option ClusterId
  description : String
  deriving DecidableEq, Repr

namespace AdvancedRule

instance : Json.Encode AdvancedRule where
  encode r := .obj [("name", encode r.name), ("expression", encode r.expression),
    ("cluster_name", encode r.clusterName), ("cluster_id", encode r.clusterId),
    ("description", encode r.description)]

open Json.RecordReader in
instance : Json.Decode AdvancedRule where
  decode? := Json.record? do
    return ⟨← required "name", ← required "expression", ← required "cluster_name",
      ← defaultedOptional "cluster_id", ← defaulted "description" ""⟩

def catchAll : String := "default_t()"

def isCatchAll (r : AdvancedRule) : Bool := Text.trim r.expression.toList = catchAll.toList

end AdvancedRule

structure RouteRules where
  basic : List BasicRule
  advanced : List AdvancedRule
  deriving DecidableEq, Repr

namespace RouteRules

def empty : RouteRules := ⟨[], []⟩

instance : Json.Encode RouteRules where
  encode r := .obj [("basic_rules", encode r.basic), ("advanced_rules", encode r.advanced)]

open Json.RecordReader in
instance : Json.Decode RouteRules where
  decode? := Json.record? do
    return ⟨← defaulted "basic_rules" [], ← defaulted "advanced_rules" []⟩

def append (r s : RouteRules) : RouteRules := ⟨r.basic ++ s.basic, r.advanced ++ s.advanced⟩

def referencesCluster (r : RouteRules) (id : ClusterId) : Bool :=
  r.basic.any (·.clusterId = some id) || r.advanced.any (·.clusterId = some id)

def hostCondition (host : String) : String := "req_host_in(\"" ++ host ++ "\")"

def referencesHost (r : RouteRules) (host : String) : Bool :=
  r.basic.any (fun b => b.hostNames.any fun h => Text.sameLetters h host) ||
  r.advanced.any fun a => Text.occursIn (hostCondition host).toList a.expression.toList

inductive Defect where
  | noCatchAll
  | matchesNothing (index : Nat)
  | badHost (index : Nat) (host : String)
  | badPath (index : Nat) (path : String)
  | noTarget (index : Nat)
  | nameless (index : Nat)
  | reservedTarget (index : Nat) (cluster : String)
  deriving DecidableEq, Repr

namespace Defect

def indexed (list : String) (index : Nat) : String :=
  list ++ "[" ++ String.ofList (Text.ofNat index) ++ "]"

def fault : Defect → Fault
  | noCatchAll =>
    .onField "The advanced rule list must end with the catch-all condition default_t()"
      "advanced_rules"
  | matchesNothing i =>
    .onField "A basic rule needs at least one host or path" (indexed "basic_rules" i)
  | badHost i host => .onField ("Invalid host '" ++ host ++ "'") (indexed "basic_rules" i)
  | badPath i path =>
    .onField ("Path '" ++ path ++ "' must start with '/'") (indexed "basic_rules" i)
  | noTarget i => .onField "Cluster name cannot be empty" (indexed "basic_rules" i)
  | nameless i =>
    .onField "An advanced rule needs a name and an expression" (indexed "advanced_rules" i)
  | reservedTarget i cluster =>
    .onField ("Cluster '" ++ cluster ++ "' may only be targeted by basic rules")
      (indexed "advanced_rules" i)

end Defect

def basicDefect? (i : Nat) (r : BasicRule) : Option Defect :=
  if r.hostNames.isEmpty && r.paths.isEmpty then some (.matchesNothing i)
  else
    match r.hostNames.find? fun h => !Hostname.isValid h with
    | some host => some (.badHost i host)
    | none =>
      match r.paths.find? fun p => p.toList.head? != some '/' with
      | some path => some (.badPath i path)
      | none => if r.clusterName.isEmpty then some (.noTarget i) else none

def advancedDefect? (i : Nat) (r : AdvancedRule) : Option Defect :=
  if Text.allBlank r.name || Text.allBlank r.expression then some (.nameless i)
  else if Cluster.isReservedName r.clusterName then some (.reservedTarget i r.clusterName)
  else none

def firstDefect? {α : Type} (defect? : Nat → α → Option Defect) : Nat → List α → Option Defect
  | _, [] => none
  | i, r :: rest => (defect? i r).or (firstDefect? defect? (i + 1) rest)

def defect? (r : RouteRules) : Option Defect :=
  if !(r.advanced.getLast?.any AdvancedRule.isCatchAll) then some .noCatchAll
  else (firstDefect? basicDefect? 0 r.basic).or (firstDefect? advancedDefect? 0 r.advanced)

end RouteRules
end FleetControl
