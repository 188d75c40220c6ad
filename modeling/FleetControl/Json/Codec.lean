import FleetControl.Json.Basic
import FleetControl.Text.Integer

/-!
Typed reading and writing of JSON values. A record is read member by member, from an object by name
or from an array by place; members of an object that the record does not name are ignored, items of
an array beyond its members are not.
-/

namespace FleetControl

class Json.Encode (α : Type) where
  encode : α → Json

class Json.Decode (α : Type) where
  decode? : Json → Option α

export Json.Encode (encode)
export Json.Decode (decode?)

namespace Json

instance : Encode Json := ⟨id⟩
instance : Decode Json := ⟨some⟩

instance : Encode Bool := ⟨bool⟩
instance : Decode Bool := ⟨fun | bool b => some b | _ => none⟩

instance : Encode String := ⟨str⟩
instance : Decode String := ⟨fun | str s => some s | _ => none⟩

instance : Encode Unit := ⟨fun _ => null⟩

def integer? (low high : Int) : Json → Option Int
  | int n => if low ≤ n ∧ n ≤ high then some n else none
  | _ => none

instance : Encode Int := ⟨int⟩

/-- Integers are signed words of 64 bits wherever they are read. -/
instance : Decode Int := ⟨integer? (-0x8000000000000000) 0x7FFFFFFFFFFFFFFF⟩

instance : Encode Int32 := ⟨fun n => int n.toInt⟩
instance : Decode Int32 :=
  ⟨fun j => (integer? (-0x80000000) 0x7FFFFFFF j).map Int32.ofInt⟩

instance : Encode UInt16 := ⟨fun n => int n.toNat⟩
instance : Decode UInt16 := ⟨fun j => (integer? 0 0xFFFF j).map fun n => UInt16.ofNat n.toNat⟩

instance : Encode UInt32 := ⟨fun n => int n.toNat⟩
instance : Decode UInt32 := ⟨fun j => (integer? 0 0xFFFFFFFF j).map fun n => UInt32.ofNat n.toNat⟩

instance : Encode UInt64 := ⟨fun n => int n.toNat⟩
instance : Decode UInt64 :=
  ⟨fun j => (integer? 0 0xFFFFFFFFFFFFFFFF j).map fun n => UInt64.ofNat n.toNat⟩

instance {α : Type} [Encode α] : Encode (List α) := ⟨fun l => arr (l.map encode)⟩
instance {α : Type} [Decode α] : Decode (List α) :=
  ⟨fun | arr items => items.mapM decode? | _ => none⟩

instance {α : Type} [Encode α] : Encode (Option α) :=
  ⟨fun | none => null | some a => encode a⟩
instance {α : Type} [Decode α] : Decode (Option α) :=
  ⟨fun | null => some none | j => (decode? j).map some⟩

instance {β : Type} [Encode β] : Encode (SortedMap String β) := ⟨ofMap encode⟩
instance {β : Type} [Decode β] : Decode (SortedMap String β) :=
  ⟨fun
    | obj members => (members.mapM fun m => (decode? m.2).map fun v => (m.1, v)).map SortedMap.ofList
    | _ => none⟩

inductive Members where
  | named (members : List (String × Json))
  | positional (items : List Json)

abbrev RecordReader := StateT Members Option

namespace RecordReader

def next? (name : String) : RecordReader (Option Json) := do
  match ← get with
  | .named members => return member? name members
  | .positional [] => return none
  | .positional (j :: rest) => set (Members.positional rest); return some j

def required {α : Type} [Decode α] (name : String) : RecordReader α := do
  match ← next? name with
  | some j => liftM (decode? (α := α) j)
  | none => failure

def optional {α : Type} [Decode α] (name : String) : RecordReader (Option α) := do
  match ← get with
  | .named members => if (member? name members).isNone then return none else required name
  | .positional _ => required name

def defaulted {α : Type} [Decode α] (name : String) (fallback : α) : RecordReader α := do
  match ← next? name with
  | some j => liftM (decode? (α := α) j)
  | none => return fallback

def defaultedOptional {α : Type} [Decode α] (name : String) : RecordReader (Option α) :=
  defaulted name none

end RecordReader

def record? {α : Type} (r : RecordReader α) : Json → Option α
  | obj members => (r.run (.named members)).map Prod.fst
  | arr items =>
    match r.run (.positional items) with
    | some (a, .positional []) => some a
    | _ => none
  | _ => none

def constant? {α : Type} (names : List (String × α)) : Json → Option α
  | str s => names.lookup s
  | obj [(s, null)] => names.lookup s
  | _ => none

end Json
end FleetControl
