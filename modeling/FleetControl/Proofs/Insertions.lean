import FleetControl.Proofs.Columns
import FleetControl.Proofs.Sessions
import FleetControl.Store.Tables
import FleetControl.Text.Integer

/-!
What a database gives back of what was put into it. An insertion names the columns that it fills, the
places of their values and the columns of the row that it returns. From that row a session reads
exactly the entity that the tables in memory make of the same request.
-/

namespace FleetControl

namespace Sql

structure Insertion where
  columns : List String
  places : List Nat
  returned : List String
  deriving DecidableEq

namespace Insertion

def items (cs : List Char) : List (List Char) := Text.splitOn ',' (cs.filter (· ≠ ' '))

def names (cs : List Char) : List String := (items cs).map String.ofList

def place? : List Char → Option Nat
  | '$' :: digits => Text.natural? digits
  | _ => none

def chars (text : String) : List Char := text.toUTF8.data.toList.map fun b => Char.ofNat b.toNat

def ofText? (text : String) : Option Insertion := do
  let (table, rest) ← Text.splitOnce '(' (chars text)
  let (columns, rest) ← Text.splitOnce ')' rest
  let (values, rest) ← Text.splitOnce '(' rest
  let (places, returning) ← Text.splitOnce ')' rest
  guard ((chars "INSERT INTO ").isPrefixOf table ∧ values = chars " VALUES " ∧
    (chars " RETURNING ").isPrefixOf returning)
  guard ((items columns).length = (items places).length)
  return ⟨names columns, ← (items places).mapM place?,
    names (returning.drop (chars " RETURNING ").length)⟩

variable (arrange : Json → Json)

def cellOf? : Arg → Option Cell
  | .null => some .null
  | .bool b => some (.bool b)
  | .int8 n => some (.int8 n)
  | .int4 n => some (.int4 n)
  | .text s => some (.text s)
  | .json j => some (.json (arrange j))
  | .bytes b => some (.bytes b)
  | .time t => some (.time t)
  | .int8s _ | .texts _ => none

def cell? (ins : Insertion) (i : Int) (args : List Arg) (column : String) : Option Cell :=
  if column = "id" then some (.int8 i)
  else
    match (ins.columns.zip ins.places).lookup column with
    | none => some .null
    | some 0 => none
    | some (place + 1) => args[place]?.bind (cellOf? arrange)

def row? (ins : Insertion) (i : Int) (args : List Arg) : Option Row :=
  ins.returned.mapM fun column => (ins.cell? arrange i args column).map fun c => (column, c)

end Insertion

/-- The row that the statement returns once it is in the database as number `i`. Members of JSON
objects come back in whatever order the database keeps them. -/
def Statement.echo? (arrange : Json → Json) (i : Int) (st : Statement) : Option Row :=
  (Insertion.ofText? st.text).bind fun ins => ins.row? arrange i st.args

/-- The exchange sends one statement, and makes `a` of the row that this returns. -/
def ReadsBack {α : Type} (arrange : Json → Json) (i : Int) (x : Exchange Fault α) (a : α) : Prop :=
  ∃ st row, st.echo? arrange i = some row ∧
    ∀ s : Session, s.alive = true → s.replies.head? = some (.rows [row]) → x s = (.ok a, s.told st)

variable {α β : Type} {arrange : Json → Json} {i : Int}

/-- The row follows from the columns that the statement names and from its arguments. -/
theorem readsBack_fetchOne (ins : Insertion) {context text : String} {args : List Arg} {row : Row}
    {read : Row → Option α} {a : α} (hst : Statement.isControl ⟨text, args⟩ = false)
    (hins : Insertion.ofText? text = some ins) (hrow : ins.row? arrange i args = some row)
    (hread : read row = some a) : ReadsBack arrange i (fetchOne context ⟨text, args⟩ read) a := by
  have hecho : Statement.echo? arrange i ⟨text, args⟩ = some row := by
    rw [Statement.echo?, hins, Option.bind_some, hrow]
  refine ⟨⟨text, args⟩, row, hecho, ?_⟩
  rintro ⟨alive, replies, refused, sent⟩ rfl hreplies
  obtain ⟨rest, rfl⟩ := List.head?_eq_some_iff.1 hreplies
  have htold : Session.told ⟨true, .rows [row] :: rest, refused, sent⟩ ⟨text, args⟩ =
      ⟨true, rest, refused, sent ++ [⟨text, args⟩]⟩ := by
    rw [Session.told, hst]
    rfl
  rw [htold]
  refine adapt_ok _ ((run_bind_ok (a := Reply.rows [row]) rfl).trans ?_)
  exact readRow_eq hread _

theorem ReadsBack.bind {x : Exchange Fault α} {k : α → Exchange Fault β} {a : α} {b : β}
    (hx : ReadsBack arrange i x a) (hk : ∀ s, k a s = (.ok b, s)) :
    ReadsBack arrange i (x >>= k) b := by
  obtain ⟨st, row, hecho, hrun⟩ := hx
  exact ⟨st, row, hecho, fun s halive hreplies =>
    (run_bind_ok (hrun s halive hreplies)).trans (hk _)⟩

end Sql

namespace Store

open Sql Json

inductive Creation where
  | product (draft : Product.Draft)
  | pool (draft : Pool.Draft)
  | bfeCluster (draft : BfeCluster.Draft)
  | subCluster (draft : SubCluster.Draft)
  | cluster (draft : Cluster.Draft)
  | domain (draft : Domain.Draft)
  | certificate (draft : Certificate.Draft)

def Creation.request : Creation → Request
  | product d => .createProduct d
  | pool d => .createPool d
  | bfeCluster d => .createBfeCluster d
  | subCluster d => .createSubCluster d
  | cluster d => .createCluster d
  | domain d => .createDomain d
  | certificate d => .createCertificate d

namespace Database

variable {arrange : Json → Json} {i : Int}

theorem createProduct_readsBack (hf : Rearranges arrange) (d : Product.Draft) :
    ReadsBack arrange i (exchange (.createProduct d)) (d.withId ⟨i⟩) := by
  refine readsBack_fetchOne {
    columns := ["name", "description", "mail_list", "contact"]
    places := [1, 2, 3, 4]
    returned := ["id", "name", "description", "mail_list", "contact"] } rfl rfl rfl ?_
  simp [product?, Row.column?, Row.jsonColumn?, Row.cell?, OfCell.ofCell?, LawfulCodec.decode hf,
    Product.Draft.withId]

theorem createPool_readsBack (hf : Rearranges arrange) (d : Pool.Draft) :
    ReadsBack arrange i (exchange (.createPool d)) (d.withId ⟨i⟩) := by
  -- Tag and type are read as texts first.
  refine ReadsBack.bind (a := ⟨⟨i⟩, d.name, d.productId, d.tag.text, d.poolType.text, d.instances⟩)
    ?_ fun s => ?_
  · refine readsBack_fetchOne {
      columns := ["name", "product_id", "tag", "pool_type", "instances"]
      places := [1, 2, 3, 4, 5]
      returned := ["id", "name", "product_id", "tag", "pool_type", "instances"] } rfl rfl rfl ?_
    simp [poolRow?, Row.column?, Row.jsonColumn?, Row.cell?, OfCell.ofCell?, LawfulCodec.decode hf]
  · rw [PoolRow.pool, PoolTag.ofText?_text, PoolType.ofText?_text]
    rfl

theorem createBfeCluster_readsBack (d : BfeCluster.Draft) :
    ReadsBack arrange i (exchange (.createBfeCluster d)) (d.withId ⟨i⟩) := by
  refine readsBack_fetchOne {
    columns := ["name", "pool_id", "capacity", "enabled"]
    places := [1, 2, 3, 4]
    returned := ["id", "name", "pool_id", "capacity", "enabled"] } rfl rfl rfl ?_
  simp [bfeCluster?, Row.column?, Row.cell?, OfCell.ofCell?, BfeCluster.Draft.withId]

theorem createSubCluster_readsBack (d : SubCluster.Draft) :
    ReadsBack arrange i (exchange (.createSubCluster d)) (d.withId ⟨i⟩) := by
  refine readsBack_fetchOne {
    columns := ["name", "product_id", "description", "pool_id"]
    places := [1, 2, 3, 4]
    returned := ["id", "name", "product_id", "description", "pool_id", "cluster_id"] }
    rfl rfl rfl ?_
  simp [subCluster?, Row.column?, Row.cell?, OfCell.ofCell?, SubCluster.Draft.withId]

set_option maxRecDepth 1000 in
theorem createCluster_readsBack (hf : Rearranges arrange) (d : Cluster.Draft) :
    ReadsBack arrange i (exchange (.createCluster d)) (d.withId ⟨i⟩) := by
  refine readsBack_fetchOne {
    columns := ["name", "product_id", "description", "basic", "sticky_sessions",
      "passive_health_check"]
    places := [1, 2, 3, 4, 5, 6]
    returned := ["id", "name", "product_id", "description", "basic", "sticky_sessions",
      "passive_health_check"] } rfl rfl rfl ?_
  simp [cluster?, Row.column?, Row.jsonColumn?, Row.cell?, OfCell.ofCell?, LawfulCodec.decode hf,
    Cluster.Draft.withId]

theorem createDomain_readsBack (d : Domain.Draft) :
    ReadsBack arrange i (exchange (.createDomain d)) (d.withId ⟨i⟩) := by
  refine readsBack_fetchOne {
    columns := ["name", "product_id", "using_advanced_redirect", "using_advanced_hsts"]
    places := [1, 2, 3, 4]
    returned := ["id", "name", "product_id", "using_advanced_redirect", "using_advanced_hsts"] }
    rfl rfl rfl ?_
  simp [domain?, Row.column?, Row.cell?, OfCell.ofCell?, Domain.Draft.withId]

set_option maxRecDepth 1000 in
theorem createCertificate_readsBack (d : Certificate.Draft) :
    ReadsBack arrange i (exchange (.createCertificate d)) (d.withId ⟨i⟩) := by
  refine readsBack_fetchOne {
    columns := ["name", "description", "is_default", "cert_file_path", "key_file_path",
      "expired_date"]
    places := [1, 2, 3, 4, 5, 6]
    returned := ["id", "name", "description", "is_default", "cert_file_path", "key_file_path",
      "expired_date"] } rfl rfl rfl ?_
  simp [certificate?, Row.column?, Row.cell?, OfCell.ofCell?, Certificate.Draft.withId]

/-- Asked to add the same entity, a database and the tables in memory give the same answer, if the
database returns what it was given and takes the number that the tables take. -/
theorem creation_readsBack (c : Creation) (hf : Rearranges arrange) (t : Tables) :
    ∃ a, (Tables.answer c.request t).1 = .ok a ∧
      ReadsBack arrange t.nextId (exchange c.request) a := by
  cases c with
  | product d => exact ⟨_, rfl, createProduct_readsBack hf d⟩
  | pool d => exact ⟨_, rfl, createPool_readsBack hf d⟩
  | bfeCluster d => exact ⟨_, rfl, createBfeCluster_readsBack d⟩
  | subCluster d => exact ⟨_, rfl, createSubCluster_readsBack d⟩
  | cluster d => exact ⟨_, rfl, createCluster_readsBack hf d⟩
  | domain d => exact ⟨_, rfl, createDomain_readsBack d⟩
  | certificate d => exact ⟨_, rfl, createCertificate_readsBack d⟩

theorem registryPool_readBack :
    ∃ st : Statement, ∃ row, st.echo? id 2 = some row ∧
      (exchange (.createPool ⟨"BFE.edge", ⟨1⟩, .bfe, .registry,
        [⟨"edge-1", "10.0.0.7", 10, .ofList [("Default", 8080)], .ofList [("zone", "a")]⟩]⟩)
        (Session.start [.rows [row]] [])).1 =
      .ok ⟨⟨2⟩, "BFE.edge", ⟨1⟩, .bfe, .registry,
        [⟨"edge-1", "10.0.0.7", 10, .ofList [("Default", 8080)], .ofList [("zone", "a")]⟩]⟩ := by
  obtain ⟨a, ha, st, row, hecho, hrun⟩ := creation_readsBack
    (.pool ⟨"BFE.edge", ⟨1⟩, .bfe, .registry,
      [⟨"edge-1", "10.0.0.7", 10, .ofList [("Default", 8080)], .ofList [("zone", "a")]⟩]⟩)
    rearranges_id Tables.start
  cases ha
  exact ⟨st, row, hecho, congrArg Prod.fst (hrun (Session.start [.rows [row]] []) rfl rfl)⟩

end Database
end Store
end FleetControl
