import FleetControl.Store.Database
import Mathlib.Order.Defs.Unbundled

/-!
What a program says in a session. A program with a state is followed by a relation between the state
before and the state after, which holds whether the program succeeds or not; for a session the relation
is that certain statements were sent, one after the other.
-/

namespace FleetControl

variable {σ ε δ α β : Type} {R : σ → σ → Prop}

def Moves (R : σ → σ → Prop) (x : ExceptT ε (StateM σ) α) : Prop := ∀ s, R s (x s).2

theorem moves_adapt {x : ExceptT ε (StateM σ) α} (f : ε → δ) (hx : Moves R x) :
    Moves R (ExceptT.adapt f x) := fun s => hx s

theorem bind_cases (x : ExceptT ε (StateM σ) α) (k : α → ExceptT ε (StateM σ) β) (s : σ) :
    (∃ a s', x s = (.ok a, s') ∧ (x >>= k) s = k a s') ∨
      ∃ e s', x s = (.error e, s') ∧ (x >>= k) s = (.error e, s') := by
  have hbind : (x >>= k) s = ExceptT.bindCont k (x s).1 (x s).2 := rfl
  rw [hbind]
  rcases x s with ⟨e | a, s'⟩
  · exact Or.inr ⟨e, s', rfl, rfl⟩
  · exact Or.inl ⟨a, s', rfl, rfl⟩

theorem run_bind_ok {x : ExceptT ε (StateM σ) α} {k : α → ExceptT ε (StateM σ) β} {s s' : σ} {a : α}
    (hx : x s = (.ok a, s')) : (x >>= k) s = k a s' := by
  rcases bind_cases x k s with ⟨b, t, hb, hrun⟩ | ⟨e, t, he, -⟩
  · rw [hx] at hb
    cases hb
    exact hrun
  · rw [hx] at he
    cases he

theorem run_bind_error {x : ExceptT ε (StateM σ) α} {k : α → ExceptT ε (StateM σ) β} {s s' : σ}
    {e : ε} (hx : x s = (.error e, s')) : (x >>= k) s = (.error e, s') := by
  rcases bind_cases x k s with ⟨b, t, hb, -⟩ | ⟨f, t, hf, hrun⟩
  · rw [hx] at hb
    cases hb
  · rw [hx] at hf
    cases hf
    exact hrun

theorem ok_of_bind {x : ExceptT ε (StateM σ) α} {k : α → ExceptT ε (StateM σ) β} {s s' : σ} {b : β}
    (h : (x >>= k) s = (.ok b, s')) : ∃ a t, x s = (.ok a, t) ∧ k a t = (.ok b, s') := by
  rcases bind_cases x k s with ⟨a, t, hx, hrun⟩ | ⟨e, t, hx, hrun⟩
  · exact ⟨a, t, hx, hrun ▸ h⟩
  · rw [hrun] at h
    cases h

theorem adapt_ok {x : ExceptT ε (StateM σ) α} {s s' : σ} {a : α} (f : ε → δ)
    (h : x s = (.ok a, s')) : ExceptT.adapt f x s = (.ok a, s') := by
  have hadapt : ExceptT.adapt f x s = ((x s).1.mapError f, (x s).2) := rfl
  rw [hadapt, h]
  rfl

theorem ok_of_adapt {x : ExceptT ε (StateM σ) α} {f : ε → δ} {s s' : σ} {a : α}
    (h : ExceptT.adapt f x s = (.ok a, s')) : x s = (.ok a, s') := by
  have hadapt : ExceptT.adapt f x s = ((x s).1.mapError f, (x s).2) := rfl
  rw [hadapt] at h
  rcases hx : x s with ⟨e | b, t⟩ <;> rw [hx] at h <;> cases h
  rfl

section

variable [IsPreorder σ R]

theorem moves_pure (a : α) : Moves R (pure a : ExceptT ε (StateM σ) α) := fun s => refl_of R s

theorem moves_throw (e : ε) : Moves R (throw e : ExceptT ε (StateM σ) α) := fun s => refl_of R s

/-- What follows the first part of a program goes on from where that has come. -/
theorem rest_bind (x : ExceptT ε (StateM σ) α) {k : α → ExceptT ε (StateM σ) β}
    (hk : ∀ a, Moves R (k a)) (s : σ) : R (x s).2 ((x >>= k) s).2 := by
  rcases bind_cases x k s with ⟨a, s', hx, hrun⟩ | ⟨e, s', hx, hrun⟩
  · rw [hx, hrun]
    exact hk a s'
  · rw [hx, hrun]
    exact refl_of R s'

theorem moves_bind {x : ExceptT ε (StateM σ) α} {k : α → ExceptT ε (StateM σ) β}
    (hx : Moves R x) (hk : ∀ a, Moves R (k a)) : Moves R (x >>= k) := by
  exact fun s => trans_of R (hx s) (rest_bind x hk s)

theorem moves_map {x : ExceptT ε (StateM σ) α} (f : α → β) (hx : Moves R x) :
    Moves R (f <$> x) := by
  rw [map_eq_pure_bind]
  exact moves_bind hx fun a => moves_pure (f a)

theorem moves_tryCatch {x : ExceptT ε (StateM σ) α} {k : ε → ExceptT ε (StateM σ) α}
    (hx : Moves R x) (hk : ∀ e, Moves R (k e)) : Moves R (tryCatch x k) := by
  intro s
  have hs := hx s
  show R s (ExceptT.tryCatch x k s).2
  show R s ((match (x s).1 with
    | .ok a => (pure (.ok a) : StateM σ (Except ε α))
    | .error e => k e) (x s).2).2
  rcases hrun : x s with ⟨e | a, s'⟩ <;> rw [hrun] at hs
  · exact trans_of R hs (hk e s')
  · exact hs

theorem moves_liftExcept (e : Except ε α) :
    Moves R (liftExcept e : ExceptT ε (StateM σ) α) := by
  cases e with
  | ok a => exact moves_pure a
  | error e => exact moves_throw e

theorem moves_mapM {f : α → ExceptT ε (StateM σ) β} (hf : ∀ a, Moves R (f a)) (l : List α) :
    Moves R (l.mapM f) := by
  induction l with
  | nil => exact moves_pure []
  | cons a l ih =>
    rw [List.mapM_cons]
    exact moves_bind (hf a) fun b => moves_bind ih fun bs => moves_pure (b :: bs)

theorem moves_forM {f : α → ExceptT ε (StateM σ) PUnit} (hf : ∀ a, Moves R (f a)) (l : List α) :
    Moves R (l.forM f) := by
  induction l with
  | nil => exact moves_pure PUnit.unit
  | cons a l ih => exact moves_bind (hf a) fun _ => ih

end

namespace Sql

def Statement.isControl (st : Statement) : Bool :=
  st.args.isEmpty && (st.text = "BEGIN" || st.text = "COMMIT")

structure Line where
  statement : Statement
  reply : Option Reply

namespace Session

def told (s : Session) (st : Statement) : Session :=
  { s with sent := s.sent ++ [st], replies := if st.isControl then s.replies else s.replies.tail }

def heard (s : Session) (st : Statement) : Option Reply :=
  if st.isControl then none else s.replies.head?

def dialogue (s : Session) : List Statement → List Line
  | [] => []
  | st :: sts => ⟨st, s.heard st⟩ :: (s.told st).dialogue sts

theorem dialogue_append (s : Session) (sts sts' : List Statement) :
    s.dialogue (sts ++ sts') = s.dialogue sts ++ (sts.foldl told s).dialogue sts' := by
  induction sts generalizing s with
  | nil => rfl
  | cons st sts ih => exact congrArg _ (ih (s.told st))

theorem statement_mem_of_mem_dialogue {s : Session} {sts : List Statement} {l : Line}
    (h : l ∈ s.dialogue sts) : l.statement ∈ sts := by
  induction sts generalizing s with
  | nil => cases h
  | cons st sts ih =>
    rcases List.mem_cons.1 h with rfl | h
    · exact List.mem_cons_self
    · exact List.mem_cons_of_mem st (ih h)

def Hears (P : Statement → Prop) (s s' : Session) : Prop :=
  ∃ sts : List Statement, s' = sts.foldl told s ∧ ∀ st ∈ sts, P st

variable {P Q : Statement → Prop} {s s' : Session}

instance : IsPreorder Session (Hears P) where
  refl s := ⟨[], rfl, fun _ h => absurd h List.not_mem_nil⟩
  trans := by
    rintro s _ _ ⟨sts, rfl, hsts⟩ ⟨sts', rfl, hsts'⟩
    refine ⟨sts ++ sts', (List.foldl_append ..).symm, ?_⟩
    intro st hst
    rcases List.mem_append.1 hst with hst | hst
    · exact hsts st hst
    · exact hsts' st hst

theorem Hears.imp (h : Hears P s s') (hPQ : ∀ st, P st → Q st) : Hears Q s s' := by
  obtain ⟨sts, hs, hsts⟩ := h
  exact ⟨sts, hs, fun st hst => hPQ st (hsts st hst)⟩

theorem sent_foldl_told (s : Session) (sts : List Statement) :
    (sts.foldl told s).sent = s.sent ++ sts := by
  induction sts generalizing s with
  | nil => simp
  | cons st sts ih => rw [List.foldl_cons, ih, told, List.append_assoc]; rfl

theorem eq_singleton_of_told {st : Statement} {sts : List Statement}
    (h : sts.foldl told s = s.told st) : sts = [st] := by
  have hsent := congrArg Session.sent h
  rw [sent_foldl_told, told] at hsent
  exact List.append_cancel_left hsent

theorem Hears.same (h : Hears P s s') : s'.alive = s.alive ∧ s'.refused = s.refused := by
  obtain ⟨sts, rfl, -⟩ := h
  induction sts generalizing s with
  | nil => exact ⟨rfl, rfl⟩
  | cons st sts ih => exact ih

theorem Hears.sent (h : Hears P s s') : ∃ sts, s'.sent = s.sent ++ sts ∧ ∀ st ∈ sts, P st := by
  obtain ⟨sts, rfl, hsts⟩ := h
  exact ⟨sts, sent_foldl_told s sts, hsts⟩

end Session

def Sends {ε α : Type} (P : Statement → Prop) (x : Exchange ε α) : Prop :=
  Moves (Session.Hears P) x

variable {P Q : Statement → Prop} {st : Statement}

theorem Sends.imp {x : Exchange ε α} (h : Sends P x) (hPQ : ∀ st, P st → Q st) : Sends Q x :=
  fun s => (h s).imp hPQ

theorem send_told {s : Session} (halive : s.alive = true) (hst : st.isControl = false) :
    (send st s).2 = s.told st := by
  obtain ⟨alive, replies, refused, sent⟩ := s
  obtain rfl : alive = true := halive
  rw [Session.told, hst]
  rcases replies with _ | ⟨reply, rest⟩
  · rfl
  · cases reply <;> rfl

theorem sends_send (h : st.isControl = false ∧ P st) : Sends P (send st) := by
  intro s
  cases halive : s.alive with
  | false =>
    have hdead : send st s = (.error .unusable, s) := by rw [send, halive]; rfl
    rw [hdead]
    exact refl_of _ s
  | true => exact ⟨[st], send_told halive h.1, by simpa using h.2⟩

theorem send_ok {s s' : Session} {reply : Reply} (hst : st.isControl = false)
    (h : send st s = (.ok reply, s')) : s.heard st = some reply ∧ s' = s.told st := by
  cases halive : s.alive with
  | false =>
    have hdead : send st s = (.error .unusable, s) := by rw [send, halive]; rfl
    rw [hdead] at h
    cases h
  | true =>
    have htold := send_told halive hst
    rw [h] at htold
    refine ⟨?_, htold⟩
    obtain ⟨alive, replies, refused, sent⟩ := s
    obtain rfl : alive = true := halive
    rw [Session.heard, hst]
    rcases replies with _ | ⟨r | n | m, rest⟩ <;> cases h <;> rfl

theorem sends_control {name : String} (h : Statement.isControl ⟨name, []⟩ = true ∧ P ⟨name, []⟩) :
    Sends P (control name) := by
  intro s
  unfold control
  split
  · exact refl_of _ s
  · refine ⟨[⟨name, []⟩], ?_, by simpa using h.2⟩
    rw [List.foldl_cons, List.foldl_nil, Session.told, h.1]
    rfl

theorem sends_inContext (context : String) {x : Exchange Failure α} (h : Sends P x) :
    Sends P (inContext context x) := moves_adapt _ h

theorem sends_readRow (read : Row → Option α) (r : Row) : Sends P (readRow read r) := by
  unfold readRow
  split
  · exact moves_pure _
  · exact moves_throw _

section

variable (context : String) (h : st.isControl = false ∧ P st)

include h

theorem sends_execute : Sends P (execute context st) :=
  sends_inContext context <| moves_bind (sends_send h) fun _ => moves_pure _

theorem sends_fetchAll (read : Row → Option α) : Sends P (fetchAll context st read) :=
  sends_inContext context <| moves_bind (sends_send h) fun _ =>
    moves_mapM (sends_readRow read) _

theorem sends_fetchOptional (read : Row → Option α) : Sends P (fetchOptional context st read) := by
  refine sends_inContext context <| moves_bind (sends_send h) fun reply => ?_
  split
  · exact moves_pure _
  · exact moves_map _ (sends_readRow read _)

theorem sends_fetchOne (read : Row → Option α) : Sends P (fetchOne context st read) := by
  refine sends_inContext context <| moves_bind (sends_send h) fun reply => ?_
  split
  · exact moves_throw _
  · exact sends_readRow read _

theorem sends_run : Sends P (Store.Database.run context st) :=
  moves_bind (sends_execute context h) fun _ => moves_pure ()

end

/-! What a query that ends well has sent, and what it got. -/

theorem readRow_eq {read : Row → Option α} {r : Row} {a : α} (h : read r = some a) (s : Session) :
    readRow read r s = (.ok a, s) := by
  rw [readRow, h]
  rfl

theorem readRow_ok {read : Row → Option α} {r : Row} {a : α} {s s' : Session}
    (h : readRow read r s = (.ok a, s')) : read r = some a := by
  cases hread : read r with
  | none =>
    rw [readRow, hread] at h
    cases h
  | some b =>
    rw [readRow, hread] at h
    cases h
    rfl

theorem readRows_ok {read : Row → Option α} {rows : List Row} {a : α} {as : List α}
    {s s' : Session} (h : rows.mapM (readRow read) s = (.ok (a :: as), s')) :
    ∃ r, rows.head? = some r ∧ read r = some a := by
  cases rows with
  | nil => cases h
  | cons r rows =>
    rw [List.mapM_cons] at h
    obtain ⟨b, t, hread, hrest⟩ := ok_of_bind h
    obtain ⟨bs, t', -, hlast⟩ := ok_of_bind hrest
    obtain rfl : b = a := by cases hlast; rfl
    exact ⟨r, rfl, readRow_ok hread⟩

theorem readRow_stays (read : Row → Option α) (r : Row) : Moves Eq (readRow read r) := by
  unfold readRow
  split
  · exact moves_pure _
  · exact moves_throw _

section

variable {context : String} {read : Row → Option α} {s s' : Session}
  (h : st.isControl = false ∧ P st)

include h

theorem fetchAll_ok {as : List α} (hrun : fetchAll context st read s = (.ok as, s')) :
    ∃ st, P st ∧ s' = s.told st ∧ ∀ a ∈ as.head?, ∃ reply r, s.heard st = some reply ∧
      reply.toRows.head? = some r ∧ read r = some a := by
  obtain ⟨reply, t, hsend, hrows⟩ := ok_of_bind (ok_of_adapt hrun)
  obtain ⟨hheard, rfl⟩ := send_ok h.1 hsend
  have hstay := moves_mapM (readRow_stays read) reply.toRows (s.told st)
  rw [hrows] at hstay
  refine ⟨st, h.2, hstay.symm, fun a ha => ?_⟩
  obtain ⟨as', rfl⟩ := List.head?_eq_some_iff.1 ha
  obtain ⟨r, hr, hread⟩ := readRows_ok hrows
  exact ⟨reply, r, hheard, hr, hread⟩

theorem fetchOptional_ok {o : Option α} (hrun : fetchOptional context st read s = (.ok o, s')) :
    ∃ st, P st ∧ s' = s.told st := by
  obtain ⟨reply, t, hsend, hrow⟩ := ok_of_bind (ok_of_adapt hrun)
  obtain ⟨-, rfl⟩ := send_ok h.1 hsend
  refine ⟨st, h.2, ?_⟩
  cases hrows : reply.toRows with
  | nil =>
    rw [hrows] at hrow
    cases hrow
    rfl
  | cons r rest =>
    rw [hrows] at hrow
    dsimp only at hrow
    have hstay := moves_map some (readRow_stays read r) (s.told st)
    rw [hrow] at hstay
    exact hstay.symm

theorem fetchOne_ok {a : α} (hrun : fetchOne context st read s = (.ok a, s')) :
    ∃ st, P st ∧ s' = s.told st ∧ ∃ reply r, s.heard st = some reply ∧
      reply.toRows.head? = some r ∧ read r = some a := by
  obtain ⟨reply, t, hsend, hrow⟩ := ok_of_bind (ok_of_adapt hrun)
  obtain ⟨hheard, rfl⟩ := send_ok h.1 hsend
  cases hrows : reply.toRows with
  | nil =>
    rw [hrows] at hrow
    cases hrow
  | cons r rest =>
    rw [hrows] at hrow
    dsimp only at hrow
    have hstay := readRow_stays read r (s.told st)
    rw [hrow] at hstay
    exact ⟨st, h.2, hstay.symm, reply, r, hheard, by rw [hrows]; rfl, readRow_ok hrow⟩

end

/-! What sends the same statement whatever comes of it. -/

section

variable {s : Session} (context : String) (read : Row → Option α) (halive : s.alive = true)
  (hst : st.isControl = false)

include halive hst

theorem run_told : (Store.Database.run context st s).2 = s.told st := by
  have hexecute : (send st s).2 = (execute context st s).2 :=
    rest_bind (R := Eq) (send st) (fun reply => moves_pure reply.count) s
  have hrun : (execute context st s).2 = (Store.Database.run context st s).2 :=
    rest_bind (R := Eq) (execute context st) (fun _ => moves_pure ()) s
  rw [← hrun, ← hexecute, send_told halive hst]

theorem fetchAll_told : (fetchAll context st read s).2 = s.told st := by
  have hfetch : (send st s).2 = (fetchAll context st read s).2 :=
    rest_bind (R := Eq) (send st) (fun reply => moves_mapM (readRow_stays read) reply.toRows) s
  rw [← hfetch, send_told halive hst]

theorem fetchOptional_told : (fetchOptional context st read s).2 = s.told st := by
  have hfetch : (send st s).2 = (fetchOptional context st read s).2 := by
    refine rest_bind (R := Eq) (send st) (fun reply => ?_) s
    split
    · exact moves_pure _
    · exact moves_map _ (readRow_stays read _)
  rw [← hfetch, send_told halive hst]

end

end Sql
end FleetControl
