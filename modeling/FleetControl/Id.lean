import FleetControl.Json.Codec
import FleetControl.Text.Integer

/-!
Identifiers that the store assigns. The kind of the thing named is part of the type, so the id of a
pool is never taken for that of a cluster.
-/

namespace FleetControl

inductive Kind where
  | product | pool | bfeCluster | subCluster | cluster | domain | certificate

structure Id (kind : Kind) where
  val : Int
  deriving DecidableEq, Repr, Inhabited

abbrev ProductId := Id .product
abbrev PoolId := Id .pool
abbrev BfeClusterId := Id .bfeCluster
abbrev SubClusterId := Id .subCluster
abbrev ClusterId := Id .cluster
abbrev DomainId := Id .domain
abbrev CertificateId := Id .certificate

namespace Id

variable {kind : Kind}

instance : Ord (Id kind) := ⟨fun a b => compare a.val b.val⟩

instance : Std.TransOrd (Id kind) where
  eq_swap := Std.OrientedOrd.eq_swap (α := Int)
  isLE_trans := Std.TransOrd.isLE_trans (α := Int)

instance : Std.LawfulEqOrd (Id kind) where
  eq_of_compare h := by
    have := Std.LawfulEqOrd.eq_of_compare (α := Int) h
    rename_i a b
    cases a; cases b; simp_all
  compare_self := Std.ReflOrd.compare_self (α := Int)

def text (i : Id kind) : String := String.ofList (Text.ofInt i.val)

def ofText? (s : String) : Option (Id kind) := (Text.signed64? s.toList).map Id.mk

instance : Json.Encode (Id kind) := ⟨fun i => encode i.val⟩
instance : Json.Decode (Id kind) := ⟨fun j => (decode? j).map Id.mk⟩

end Id
end FleetControl
