import FleetControl.Store.Request

/-!
Programs over a store. A `Work` is a tree of requests, each followed by what to do with its answer,
and means nothing until a store answers the requests. An `Operation` is what a caller can ask for:
it is refused at once, or it is one unit of work that either only reads or is committed at its end.
-/

namespace FleetControl.Store

inductive Work (α : Type) where
  | done (a : α)
  | fail (f : Fault)
  | step (r : Request) (next : r.Reply → Work α)

namespace Work

variable {α β : Type}

def bind : Work α → (α → Work β) → Work β
  | done a, k => k a
  | fail f, _ => fail f
  | step r next, k => step r fun x => (next x).bind k

instance : Monad Work where
  pure := done
  bind := bind

def ask (r : Request) : Work r.Reply := step r done

def ofExcept : Except Fault α → Work α
  | .ok a => done a
  | .error f => fail f

def require (f : Fault) : Option α → Work α
  | some a => done a
  | none => fail f

def refuseIf (f : Fault) (b : Bool) : Work Unit := if b then fail f else done ()

def forAll (f : α → Work β) : List α → Work (List β)
  | [] => done []
  | a :: as => (f a).bind fun b => (forAll f as).bind fun bs => done (b :: bs)

/-- How a store with states `σ` answers requests. A failed request may have changed the state. -/
abbrev Handler (σ : Type) := (r : Request) → σ → Except Fault r.Reply × σ

def run {σ : Type} (h : Handler σ) : Work α → σ → Except Fault α × σ
  | done a, s => (.ok a, s)
  | fail f, s => (.error f, s)
  | step r next, s =>
    match h r s with
    | (.ok x, s') => (next x).run h s'
    | (.error f, s') => (.error f, s')

end Work

inductive Operation (α : Type) where
  | refuse (f : Fault)
  /-- A unit of work that is dropped at its end. -/
  | query (work : Work α)
  /-- A unit of work that is committed if it succeeds. -/
  | update (work : Work α)

namespace Operation

variable {α β : Type}

def map (g : α → β) : Operation α → Operation β
  | refuse f => refuse f
  | query w => query (w.bind fun a => .done (g a))
  | update w => update (w.bind fun a => .done (g a))

def guarded (refusal : Option Fault) (op : Operation α) : Operation α :=
  match refusal with
  | some f => refuse f
  | none => op

end Operation
end FleetControl.Store
