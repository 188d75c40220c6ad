import FleetControl.Pool.Instance
import FleetControl.Product

/-!
Pools of backend instances. A pool's name is the name of its product, a dot and a suffix; pools of
the built-in product serve the load balancer itself.
-/

namespace FleetControl

/-- Whom a pool serves: the load balancer fleet or a product. -/
inductive PoolTag where
  | bfe | product
  deriving DecidableEq, Repr

namespace PoolTag

def text : PoolTag → String
  | bfe => "bfe"
  | product => "product"

def names : List (String × PoolTag) := [("bfe", bfe), ("product", product)]

def ofText? (s : String) : Option PoolTag := names.lookup s

instance : Json.Encode PoolTag := ⟨fun t => .str t.text⟩
instance : Json.Decode PoolTag := ⟨Json.constant? names⟩

end PoolTag

/-- Where a pool's instances come from: its operators or a service registry. -/
inductive PoolType where
  | static | registry
  deriving DecidableEq, Repr

namespace PoolType

def text : PoolType → String
  | static => "static"
  | registry => "registry"

def names : List (String × PoolType) := [("static", static), ("registry", registry)]

def ofText? (s : String) : Option PoolType := names.lookup s

instance : Json.Encode PoolType := ⟨fun t => .str t.text⟩
instance : Json.Decode PoolType := ⟨Json.constant? names⟩

end PoolType

structure Pool where
  id : PoolId
  name : String
  productId : ProductId
  tag : PoolTag
  poolType : PoolType
  instances : List Instance
  deriving DecidableEq

namespace Pool

instance : Json.Encode Pool where
  encode p := .obj [("id", encode p.id), ("name", encode p.name),
    ("product_id", encode p.productId), ("tag", encode p.tag), ("pool_type", encode p.poolType),
    ("instances", encode p.instances)]

open Json.RecordReader in
instance : Json.Decode Pool where
  decode? := Json.record? do
    return ⟨← required "id", ← required "name", ← required "product_id", ← required "tag",
      ← required "pool_type", ← required "instances"⟩

def isInfrastructure (p : Pool) : Bool := p.tag = .bfe

def ready (p : Pool) : Bool :=
  match p.poolType with
  | .static => true
  | .registry => p.instances.any fun i => 0 < i.weight

structure Draft where
  name : String
  productId : ProductId
  tag : PoolTag
  poolType : PoolType
  instances : List Instance
  deriving DecidableEq

def Draft.withId (d : Draft) (id : PoolId) : Pool :=
  ⟨id, d.name, d.productId, d.tag, d.poolType, d.instances⟩

structure Proposal where
  name : String
  poolType : PoolType
  instances : List Instance
  deriving DecidableEq

open Json.RecordReader in
def Proposal.ofJson? : Json → Option Proposal :=
  Json.record? do
    return ⟨← required "name", ← required "pool_type", ← defaulted "instances" []⟩

def Proposal.findings (p : Proposal) : Findings :=
  .ofField "name" (Validation.length (some 1) (some 128) none p.name)

inductive NameDefect where
  | empty
  | foreignOwner (name owner : String)
  | emptySuffix (name : String)
  deriving DecidableEq, Repr

def NameDefect.fault : NameDefect → Fault
  | empty => .onField "Pool name cannot be empty" "name"
  | foreignOwner name owner =>
    .onField ("Pool name '" ++ name ++ "' must be prefixed with '" ++ owner ++ ".'") "name"
  | emptySuffix name => .onField ("Pool name '" ++ name ++ "' has an empty suffix") "name"

/-- The full name of a pool of `owner`: a name with the owner in front stays as it is, a name
without a dot gets the owner, and a name with another owner is refused. -/
def qualify (owner name : String) : Except NameDefect String :=
  if name.isEmpty then .error .empty
  else
    match Text.splitOnce '.' name.toList with
    | none => .ok (owner ++ "." ++ name)
    | some (before, after) =>
      if before ≠ owner.toList then .error (.foreignOwner name owner)
      else if after.isEmpty then .error (.emptySuffix name)
      else .ok name

end Pool
end FleetControl
