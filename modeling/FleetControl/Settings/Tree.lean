import FleetControl.Json.Basic
import FleetControl.Text.Integer

/-!
Settings before they have types: a tree of tables, over which several sources are laid one after the
other. A source names a place in the tree by a path such as `database.url` or `list[0].name`.
-/

namespace FleetControl.SettingsTree

inductive Step where
  | key (name : String)
  /-- Counted from the end if it is negative. -/
  | index (i : Int)
  deriving DecidableEq, Repr

/-! ## Paths -/

def isNameChar (c : Char) : Bool :=
  ('a' ≤ c ∧ c ≤ 'z') || ('A' ≤ c ∧ c ≤ 'Z') || ('0' ≤ c ∧ c ≤ '9') || c = '_' || c = '-'

def index? (cs : List Char) : Option Int :=
  match cs with
  | '-' :: ds => (Text.natural? ds).map fun n => -(n : Int)
  | ds => (Text.natural? ds).map Int.ofNat

inductive Mode where
  | name (chars : List Char)
  | index (chars : List Char)
  | between

def next? (c : Char) : Option Mode :=
  if c = '.' then some (.name []) else if c = '[' then some (.index []) else none

def nameStep (chars : List Char) : Option Step :=
  if chars.isEmpty then none else some (.key (String.ofList chars.reverse))

def steps? : Mode → List Char → Option (List Step)
  | .name chars, [] => (nameStep chars).map ([·])
  | .between, [] => some []
  | .index _, [] => none
  | .name chars, c :: cs =>
    if isNameChar c then steps? (.name (c :: chars)) cs
    else
      match nameStep chars, next? c with
      | some s, some m => (steps? m cs).map (s :: ·)
      | _, _ => none
  | .index chars, c :: cs =>
    if c = ']' then
      match index? chars.reverse with
      | some i => (steps? .between cs).map (.index i :: ·)
      | none => none
    else steps? (.index (c :: chars)) cs
  | .between, c :: cs =>
    match next? c with
    | some m => steps? m cs
    | none => none

/-- Text that is no path is one key. -/
def path (text : String) : List Step := (steps? (.name []) text.toList).getD [.key text]

/-! ## Laying one tree over another -/

def members : Json → List (String × Json)
  | .obj ms => ms
  | _ => []

def items : Json → List Json
  | .arr js => js
  | _ => []

def put (name : String) (j : Json) : List (String × Json) → List (String × Json)
  | [] => [(name, j)]
  | m :: ms => if m.1 = name then (name, j) :: ms else m :: put name j ms

def child (name : String) (j : Json) : Json := (Json.member? name (members j)).getD .null

mutual

def overlay : (new : Json) → (old : Json) → Json
  | .obj ms, old => .obj (overlayMembers ms (members old))
  | j, _ => j

def overlayMembers : List (String × Json) → List (String × Json) → List (String × Json)
  | [], old => old
  | (name, j) :: ms, old => overlayMembers ms (put name (overlay j (child name (.obj old))) old)

end

def reach (i : Int) (js : List Json) : List Json × Nat :=
  if 0 ≤ i then (js ++ List.replicate (i.toNat + 1 - js.length) .null, i.toNat)
  else if i.natAbs ≤ js.length then (js, js.length - i.natAbs)
  else (List.replicate (i.natAbs - js.length) .null ++ js, 0)

def update (f : Json → Json) : List Step → Json → Json
  | [], j => f j
  | .key name :: rest, j => .obj (put name (update f rest (child name j)) (members j))
  | .index i :: rest, j =>
    let (js, n) := reach i (items j)
    .arr (js.set n (update f rest (js.getD n .null)))

def apply (source : List (String × Json)) (tree : Json) : Json :=
  source.foldl (fun t s => update (overlay s.2) (path s.1) t) tree

end FleetControl.SettingsTree
