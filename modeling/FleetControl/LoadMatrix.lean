import FleetControl.Fault
import FleetControl.Json.Reader
import FleetControl.Json.Codec
import FleetControl.Text.Integer

/-!
Load matrices: for every BFE cluster a row that splits all traffic of one cluster among its
sub-clusters, in percent, with a reserved column for the share that is dropped.
-/

namespace FleetControl

/-- Percentages by sub-cluster name. -/
abbrev LoadRow := SortedMap String Int32

structure LoadMatrix where
  rows : SortedMap String LoadRow
  deriving DecidableEq

namespace LoadMatrix

/-- The reserved column for traffic that no sub-cluster gets. -/
def blackhole : String := "GSLB_BLACKHOLE"

def totalWeight : Int32 := 100

def empty : LoadMatrix := ⟨∅⟩

instance : Json.Encode LoadMatrix := ⟨fun m => encode m.rows⟩
instance : Json.Decode LoadMatrix := ⟨fun j => (decode? j).map LoadMatrix.mk⟩

def row? (m : LoadMatrix) (bfe : String) : Option LoadRow := m.rows.get? bfe

def insertRow (m : LoadMatrix) (bfe : String) (row : LoadRow) : LoadMatrix := ⟨m.rows.insert bfe row⟩

def eraseRow (m : LoadMatrix) (bfe : String) : LoadMatrix := ⟨m.rows.erase bfe⟩

/-- An equal share for every sub-cluster, rounded down, and the rest for the blackhole. The number of
sub-clusters is a word of 32 bits here. -/
def defaultRow (subClusters : List String) : LoadRow :=
  if subClusters.isEmpty then (∅ : LoadRow).insert blackhole totalWeight
  else
    let count := Int32.ofNat subClusters.length
    let share := totalWeight / count
    (subClusters.foldl (fun row name => row.insert name share) (∅ : LoadRow)).insert blackhole
      (totalWeight - share * count)

def defaultFor (bfes subClusters : List String) : LoadMatrix :=
  ⟨.ofList (bfes.map fun bfe => (bfe, defaultRow subClusters))⟩

inductive Defect where
  | reservedBound
  | unknownRow (bfe : String)
  | missingRow (bfe : String)
  | unboundColumn (bfe subCluster : String)
  | weightOutOfRange (bfe subCluster : String) (weight : Int32)
  | badSum (bfe : String) (sum : Int)
  | missingColumn (bfe subCluster : String)
  deriving DecidableEq, Repr

namespace Defect

def message : Defect → String
  | reservedBound => "'" ++ blackhole ++ "' is reserved and cannot be bound as a sub cluster"
  | unknownRow bfe => "LB matrix has a row for unknown BFE cluster '" ++ bfe ++ "'"
  | missingRow bfe => "LB matrix is missing the row for BFE cluster '" ++ bfe ++ "'"
  | unboundColumn bfe sub =>
    "LB matrix row '" ++ bfe ++ "' references sub cluster '" ++ sub ++
      "' which is not bound to the cluster"
  | weightOutOfRange bfe sub weight =>
    "LB matrix row '" ++ bfe ++ "' gives sub cluster '" ++ sub ++ "' weight " ++
      String.ofList (Text.ofInt weight.toInt) ++ ", expected 0..=100"
  | badSum bfe sum =>
    "LB matrix row '" ++ bfe ++ "' sums to " ++ String.ofList (Text.ofInt sum) ++ ", expected 100"
  | missingColumn bfe sub =>
    "LB matrix row '" ++ bfe ++ "' does not schedule bound sub cluster '" ++ sub ++ "'"

def fault (d : Defect) : Fault :=
  .onField d.message (match d with | reservedBound => "sub_clusters" | _ => "scheduler")

end Defect

def sum (row : LoadRow) : Int := (row.values.map Int32.toInt).foldr (· + ·) 0

def entryDefect? (bound : List String) (bfe : String) : List (String × Int32) → Option Defect
  | [] => none
  | (name, weight) :: rest =>
    if name ≠ blackhole && !bound.contains name then some (.unboundColumn bfe name)
    else if weight < 0 || totalWeight < weight then some (.weightOutOfRange bfe name weight)
    else entryDefect? bound bfe rest

def rowDefect? (bound : List String) (bfe : String) (row : LoadRow) : Option Defect :=
  match entryDefect? bound bfe row.entries with
  | some d => some d
  | none =>
    if sum row ≠ totalWeight.toInt then some (.badSum bfe (sum row))
    else (bound.find? fun name => !row.contains name).map fun name => .missingColumn bfe name

def nameSet (names : List String) : List String :=
  (SortedMap.ofList (names.map fun n => (n, ()))).keys

def defect? (m : LoadMatrix) (bfes subClusters : List String) : Option Defect :=
  let known := nameSet bfes
  let bound := nameSet subClusters
  if bound.contains blackhole then some .reservedBound
  else
    match m.rows.keys.find? fun bfe => !known.contains bfe with
    | some bfe => some (.unknownRow bfe)
    | none =>
      match known.find? fun bfe => !m.rows.contains bfe with
      | some bfe => some (.missingRow bfe)
      | none => m.rows.entries.findSome? fun (bfe, row) => rowDefect? bound bfe row

def check (m : LoadMatrix) (bfes subClusters : List String) : Except Defect Unit :=
  match m.defect? bfes subClusters with
  | some d => .error d
  | none => .ok ()

structure Undrained where
  subCluster : String
  weight : Int32
  bfe : String
  deriving DecidableEq, Repr

def Undrained.fault (u : Undrained) : Fault :=
  .modelViolation ("Sub cluster '" ++ u.subCluster ++ "' still carries " ++
    String.ofList (Text.ofInt u.weight.toInt) ++ "% of traffic in BFE cluster '" ++ u.bfe ++
    "'; set it to 0 before unbinding")

def drop (bfe : String) : List String → LoadRow → Except Undrained LoadRow
  | [], row => .ok row
  | name :: rest, row =>
    let weight := (row.get? name).getD 0
    if weight ≠ 0 then .error ⟨name, weight, bfe⟩ else drop bfe rest (row.erase name)

def join (added : List String) (row : LoadRow) : LoadRow :=
  added.foldl (fun row name => if row.contains name then row else row.insert name 0) row

def rebind (m : LoadMatrix) (removed added : List String) : Except Undrained LoadMatrix :=
  (m.rows.mapExcept fun bfe row => (drop bfe removed row).map (join added)).map LoadMatrix.mk

def ofText? (raw : String) : Option LoadMatrix := (Json.ofText? raw).bind decode?

/-- Stored text that is no matrix is dirty data; the message names the fault without locating it. -/
def ofStored (raw : String) : Except Fault LoadMatrix :=
  match ofText? raw with
  | some m => .ok m
  | none => .error (.dirtyData "Stored LB matrix is not valid JSON")

end LoadMatrix
end FleetControl
