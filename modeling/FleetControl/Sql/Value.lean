import FleetControl.Calendar
import FleetControl.Id
import FleetControl.Json.Codec

/-!
Values that go to and come from a database: the arguments of statements and the cells of rows. A cell
is read at the type it is expected to have, and at no other.
-/

namespace FleetControl.Sql

inductive Arg where
  | null
  | bool (b : Bool)
  | int8 (n : Int)
  | int4 (n : Int)
  | text (s : String)
  | json (j : Json)
  | bytes (b : List UInt8)
  | time (t : Instant)
  | int8s (ns : List Int)
  | texts (ss : List String)

class ToArg (α : Type) where
  arg : α → Arg

export ToArg (arg)

instance : ToArg Bool := ⟨.bool⟩
instance : ToArg Int := ⟨.int8⟩
instance : ToArg String := ⟨.text⟩
instance : ToArg Json := ⟨.json⟩
instance : ToArg Instant := ⟨.time⟩
instance {kind : Kind} : ToArg (Id kind) := ⟨fun i => .int8 i.val⟩
instance {kind : Kind} : ToArg (List (Id kind)) := ⟨fun l => .int8s (l.map (·.val))⟩
instance : ToArg (List String) := ⟨.texts⟩
instance {α : Type} [ToArg α] : ToArg (Option α) := ⟨fun | none => .null | some a => arg a⟩

structure Statement where
  text : String
  args : List Arg

inductive Cell where
  | null
  | bool (b : Bool)
  | int8 (n : Int)
  | int4 (n : Int)
  | text (s : String)
  | json (j : Json)
  | bytes (b : List UInt8)
  | time (t : Instant)

abbrev Row := List (String × Cell)

class OfCell (α : Type) where
  ofCell? : Cell → Option α

instance : OfCell Bool := ⟨fun | .bool b => some b | _ => none⟩
instance : OfCell Int := ⟨fun | .int8 n => some n | _ => none⟩
instance : OfCell String := ⟨fun | .text s => some s | _ => none⟩
instance : OfCell Instant := ⟨fun | .time t => some t | _ => none⟩
instance : OfCell (List UInt8) := ⟨fun | .bytes b => some b | _ => none⟩
instance {kind : Kind} : OfCell (Id kind) := ⟨fun c => (OfCell.ofCell? c).map Id.mk⟩
instance {α : Type} [OfCell α] : OfCell (Option α) :=
  ⟨fun | .null => some none | c => (OfCell.ofCell? c).map some⟩

namespace Row

def cell? (r : Row) (name : String) : Option Cell :=
  r.foldl (fun found c => if c.1 = name then some c.2 else found) none

def column? {α : Type} [OfCell α] (r : Row) (name : String) : Option α :=
  (r.cell? name).bind OfCell.ofCell?

def jsonColumn? {α : Type} [Json.Decode α] (r : Row) (name : String) : Option α :=
  match r.cell? name with
  | some (.json j) => decode? j
  | _ => none

def first? {α : Type} [OfCell α] (r : Row) : Option α :=
  match r with
  | [] => none
  | c :: _ => OfCell.ofCell? c.2

end Row
end FleetControl.Sql
