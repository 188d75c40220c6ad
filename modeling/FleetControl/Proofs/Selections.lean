import FleetControl.Proofs.Insertions
import Mathlib.Data.Int.Order.Basic
import Mathlib.Data.List.Lex
import Mathlib.Data.List.Nodup

/-!
What a database does with statements, as far as their texts say. An insertion that returns nothing puts
one row into its table. A query gets the rows of its table that it asks for, in the order that it asks
for, and if their ranks differ there is no choice. An exchange whose statements are all carried out goes
on to its end.
-/

namespace FleetControl.Sql

variable (arrange : Json → Json)

/-! What a database does with the statements. -/

structure Filing where
  table : String
  columns : List String
  places : List Nat
  deriving DecidableEq

namespace Filing

open Insertion

def ofText? (text : String) : Option Filing := do
  let (table, rest) ← Text.splitOnce '(' (chars text)
  let (columns, rest) ← Text.splitOnce ')' rest
  let (values, rest) ← Text.splitOnce '(' rest
  let (places, rest) ← Text.splitOnce ')' rest
  guard (values = chars " VALUES " ∧ rest = [] ∧ (items columns).length = (items places).length)
  let table ← (chars "INSERT INTO ").isPrefixOf? table
  return ⟨String.ofList (table.filter (· ≠ ' ')), names columns, ← (items places).mapM place?⟩

def cell? (args : List Arg) : (place : Nat) → Option Cell
  | 0 => none
  | place + 1 => args[place]?.bind (cellOf? arrange)

def row? (f : Filing) (args : List Arg) : Option Row :=
  (f.columns.zip f.places).mapM fun (column, place) =>
    (cell? arrange args place).map fun c => (column, c)

end Filing

def Statement.filed? (st : Statement) : Option (String × Row) := do
  let f ← Filing.ofText? st.text
  return (f.table, ← f.row? arrange st.args)

theorem Statement.filed?_eq {arrange : Json → Json} (f : Filing) {text : String} {args : List Arg}
    {row : Row} (hf : Filing.ofText? text = some f) (hrow : f.row? arrange args = some row) :
    Statement.filed? arrange ⟨text, args⟩ = some (f.table, row) := by
  rw [Statement.filed?, hf]
  simp [hrow]

def filed (table : String) (sts : List Statement) : List Row :=
  sts.filterMap fun st => (st.filed? arrange).bind fun f => if f.1 = table then some f.2 else none

/-- What a query says that takes one argument, to choose some rows of a table or, by a null, all. -/
structure Selection where
  columns : List String
  table : String
  key : String
  order : List String
  deriving DecidableEq

def Cell.number? : Cell → Option Int
  | .int8 n | .int4 n => some n
  | _ => none

namespace Selection

def words (text : String) : List String :=
  (Text.splitOn ' ' ((Insertion.chars text).filter (· ≠ ','))).map String.ofList

def ofText? (text : String) : Option Selection :=
  match words text with
  | "SELECT" :: rest =>
    match rest.span (· ≠ "FROM") with
    | (columns, _ :: table :: "WHERE" :: "($1::BIGINT" :: "IS" :: "NULL" :: "OR" :: key :: "=" ::
        "$1)" :: "ORDER" :: "BY" :: order) => some ⟨columns, table, key, order⟩
    | _ => none
  | _ => none

def admits (sel : Selection) (args : List Arg) (row : Row) : Bool :=
  match args with
  | [.null] => true
  | [.int8 n] => row.column? sel.key = some n
  | _ => false

def rank (sel : Selection) (row : Row) : List Int :=
  sel.order.filterMap fun column => (row.cell? column).bind Cell.number?

def InOrder (sel : Selection) (a b : Row) : Prop := sel.rank a ≤ sel.rank b

def Shows (sel : Selection) (stored row : Row) : Prop :=
  ∀ column ∈ sel.columns, row.cell? column = stored.cell? column

end Selection

def Answers (sts : List Statement) (query : Statement) (rows : List Row) : Prop :=
  ∃ sel stored, Selection.ofText? query.text = some sel ∧
    List.Perm stored ((filed arrange sel.table sts).filter (sel.admits query.args)) ∧
    stored.Pairwise sel.InOrder ∧ List.Forall₂ sel.Shows stored rows

section

variable {arrange} {sel : Selection} {table : String}

theorem filed_append (sts sts' : List Statement) :
    filed arrange table (sts ++ sts') = filed arrange table sts ++ filed arrange table sts' :=
  List.filterMap_append

theorem filed_flatMap {ι : Type} (sts : ι → List Statement) (l : List ι) :
    filed arrange table (l.flatMap sts) = l.flatMap fun i => filed arrange table (sts i) := by
  induction l with
  | nil => rfl
  | cons i l ih => rw [List.flatMap_cons, filed_append, ih, List.flatMap_cons]

theorem filed_map {ι : Type} {st : ι → Statement} {row : ι → Row} {table' : String}
    (h : ∀ i, (st i).filed? arrange = some (table', row i)) (l : List ι) :
    filed arrange table (l.map st) = if table' = table then l.map row else [] := by
  induction l with
  | nil => split <;> rfl
  | cons i l ih =>
    rw [filed] at ih
    rw [List.map_cons, filed, List.filterMap_cons, h, ih]
    by_cases ht : table' = table
    · simp [ht]
    · simp [ht]

theorem eq_of_inOrder {stored rows : List Row} (hperm : stored.Perm rows)
    (hstored : stored.Pairwise sel.InOrder)
    (hrows : rows.Pairwise fun a b => sel.rank a < sel.rank b) : stored = rows := by
  have hnodup : (rows.map sel.rank).Nodup := List.pairwise_map.2 (hrows.imp ne_of_lt)
  have hinOrder : rows.Pairwise sel.InOrder := hrows.imp le_of_lt
  refine hperm.eq_of_pairwise (fun a b ha hb hab hba => ?_) hstored hinOrder
  exact List.inj_on_of_nodup_map hnodup (hperm.subset ha) hb (le_antisymm hab hba)

end

theorem Row.column?_eq {α : Type} [OfCell α] {row : Row} {name : String} {cell : Cell} {a : α}
    (hcell : row.cell? name = some cell) (ha : OfCell.ofCell? cell = some a) :
    row.column? name = some a := by
  rw [Row.column?, hcell, Option.bind_some, ha]

theorem Row.jsonColumn?_eq {α : Type} [Json.Decode α] {row : Row} {name : String} {j : Json} {a : α}
    (hcell : row.cell? name = some (.json j)) (ha : decode? j = some a) :
    row.jsonColumn? name = some a := by
  rw [Row.jsonColumn?, hcell]
  exact ha

/-! Exchanges in which every statement is carried out. -/

def Reply.isDone : Reply → Bool
  | .error _ => false
  | _ => true

def Completes {α : Type} (sts : List Statement) (x : Exchange Fault α) (a : α) : Prop :=
  ∀ (s : Session) (acks rest : List Reply), s.alive = true → s.replies = acks ++ rest →
    acks.length = sts.length → (∀ reply ∈ acks, reply.isDone = true) →
    x s = (.ok a, { s with replies := rest, sent := s.sent ++ sts })

variable {α β : Type} {st : Statement} {sts sts' : List Statement}

theorem completes_pure (a : α) : Completes [] (pure a) a := by
  rintro ⟨alive, replies, refused, sent⟩ acks rest - rfl hlength -
  rw [List.eq_nil_iff_length_eq_zero.2 hlength, List.append_nil, List.nil_append]
  rfl

theorem completes_run (context : String) : Completes [st] (Store.Database.run context st) () := by
  rintro ⟨alive, replies, refused, sent⟩ acks rest rfl rfl hlength hdone
  obtain ⟨reply, rfl⟩ := List.length_eq_one_iff.1 hlength
  have hreply := hdone reply List.mem_cons_self
  cases reply with
  | rows rows => rfl
  | affected n => rfl
  | error message => cases hreply

theorem Completes.bind {x : Exchange Fault α} {k : α → Exchange Fault β} {a : α} {b : β}
    (hx : Completes sts x a) (hk : Completes sts' (k a) b) : Completes (sts ++ sts') (x >>= k) b := by
  intro s acks rest halive hreplies hlength hdone
  -- The replies to the first part come first.
  have hsplit : s.replies = acks.take sts.length ++ (acks.drop sts.length ++ rest) := by
    rw [hreplies, ← List.append_assoc, List.take_append_drop]
  rw [List.length_append] at hlength
  have hfirst := hx s _ _ halive hsplit (by rw [List.length_take]; omega)
    fun reply h => hdone reply (List.mem_of_mem_take h)
  rw [run_bind_ok hfirst]
  have hsecond := hk { s with replies := acks.drop sts.length ++ rest, sent := s.sent ++ sts } _ _
    halive rfl (by rw [List.length_drop]; omega) fun reply h => hdone reply (List.mem_of_mem_drop h)
  rw [hsecond, List.append_assoc]

theorem completes_mapM {f : α → Exchange Fault Unit} {st : α → Statement}
    (h : ∀ a, Completes [st a] (f a) ()) (l : List α) :
    Completes (l.map st) (l.mapM f) (l.map fun _ => ()) := by
  induction l with
  | nil => exact completes_pure []
  | cons a l ih =>
    rw [List.mapM_cons]
    have hrest : Completes (l.map st) (l.mapM f >>= fun us => pure (() :: us))
        (() :: l.map fun _ => ()) := by
      have hlast := ih.bind (k := fun us => pure (() :: us)) (completes_pure _)
      rwa [List.append_nil] at hlast
    exact (h a).bind hrest

theorem readRows_eq {read : Row → Option α} {rows : List Row} {as : List α}
    (h : rows.mapM read = some as) (s : Session) : rows.mapM (readRow read) s = (.ok as, s) := by
  induction rows generalizing as with
  | nil =>
    cases h
    rfl
  | cons row rows ih =>
    rw [List.mapM_cons] at h
    obtain ⟨a, ha, h⟩ := Option.bind_eq_some_iff.1 h
    obtain ⟨as', has, h⟩ := Option.bind_eq_some_iff.1 h
    cases h
    rw [List.mapM_cons, run_bind_ok (readRow_eq ha s), run_bind_ok (ih has)]
    rfl

theorem fetchAll_rows {context : String} {read : Row → Option α} {s : Session} {rows : List Row}
    {rest : List Reply} {as : List α} (halive : s.alive = true)
    (hreplies : s.replies = .rows rows :: rest) (h : rows.mapM read = some as) :
    fetchAll context st read s = (.ok as, { s with replies := rest, sent := s.sent ++ [st] }) := by
  obtain ⟨alive, replies, refused, sent⟩ := s
  obtain rfl : alive = true := halive
  obtain rfl : replies = _ := hreplies
  refine adapt_ok _ ((run_bind_ok (a := Reply.rows rows) rfl).trans ?_)
  exact readRows_eq h _

end FleetControl.Sql
