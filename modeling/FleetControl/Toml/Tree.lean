import FleetControl.Json.Basic

/-!
The tree of tables that a TOML document builds up. A table may be added to only in the way in which
it was begun: a header defines a table once, keys with dots reach only tables that no header has
defined, and the value of a key is closed.
-/

namespace FleetControl.Toml

inductive Origin where
  | header
  | passedThrough
  | dottedKey
  deriving DecidableEq, Repr

inductive Node where
  | value (j : Json)
  | table (origin : Origin) (children : List (String × Node))
  /-- An array of tables, the one that is open first. -/
  | tables (items : List (List (String × Node)))

abbrev Table := List (String × Node)

namespace Table

def child? (t : Table) (key : String) : Option Node := List.lookup key t

def put (key : String) (n : Node) : Table → Table
  | [] => [(key, n)]
  | c :: cs => if c.1 = key then (key, n) :: cs else c :: put key n cs

def descend (dotted : Bool) : List String → (Table → Option Table) → Table → Option Table
  | [], f, t => f t
  | key :: path, f, t =>
    match child? t key with
    | none =>
      (descend dotted path f []).map fun sub =>
        put key (.table (if dotted then .dottedKey else .passedThrough) sub) t
    | some (.table origin sub) =>
      if dotted && origin = .header then none
      else (descend dotted path f sub).map fun sub => put key (.table origin sub) t
    | some (.tables (last :: items)) =>
      (descend dotted path f last).map fun last => put key (.tables (last :: items)) t
    | some _ => none

def insertNew (key : String) (j : Json) (t : Table) : Option Table :=
  if (child? t key).isSome then none else some (put key (.value j) t)

def splitPath (path : List String) : List String × String := (path.dropLast, path.getLastD "")

def insertAt (path : List String) (j : Json) : Table → Option Table :=
  let (way, key) := splitPath path
  descend true way (insertNew key j)

def defineTable (key : String) (t : Table) : Option Table :=
  match child? t key with
  | none => some (put key (.table .header []) t)
  | some (.table .passedThrough sub) => some (put key (.table .header sub) t)
  | some _ => none

def appendTable (key : String) (t : Table) : Option Table :=
  match child? t key with
  | none => some (put key (.tables [[]]) t)
  | some (.tables items) => some (put key (.tables ([] :: items)) t)
  | some _ => none

mutual

def nodeJson : Node → Json
  | .value j => j
  | .table _ children => .obj (membersJson children)
  | .tables items => .arr (itemsJson items).reverse

def membersJson : List (String × Node) → List (String × Json)
  | [] => []
  | (key, n) :: cs => (key, nodeJson n) :: membersJson cs

def itemsJson : List (List (String × Node)) → List Json
  | [] => []
  | t :: ts => .obj (membersJson t) :: itemsJson ts

end

def toJson (t : Table) : Json := .obj (membersJson t)

end Table
end FleetControl.Toml
