import FleetControl.Store.Work

/-!
Running programs over a store. A run that ends well is taken apart request by request; what a whole
program may ask for bounds what its run can change.
-/

namespace FleetControl.Store.Work

variable {α β σ : Type} {h : Handler σ} {s s' : σ}

theorem bind_eq (w : Work α) (k : α → Work β) : w >>= k = w.bind k := rfl

theorem bind_done (w : Work α) : w.bind done = w := by
  induction w with
  | done a => rfl
  | fail f => rfl
  | step r next ih => exact congrArg (step r) (funext ih)

theorem bind_bind {γ : Type} (w : Work α) (k : α → Work β) (l : β → Work γ) :
    (w.bind k).bind l = w.bind fun a => (k a).bind l := by
  induction w with
  | done a => rfl
  | fail f => rfl
  | step r next ih => exact congrArg (step r) (funext ih)

instance : LawfulMonad Work := LawfulMonad.mk' Work bind_done (fun _ _ => rfl) bind_bind

theorem run_bind (h : Handler σ) (w : Work α) (k : α → Work β) (s : σ) :
    (w.bind k).run h s =
      match w.run h s with
      | (.ok a, s') => (k a).run h s'
      | (.error f, s') => (.error f, s') := by
  induction w generalizing s with
  | done a => rfl
  | fail f => rfl
  | step r next ih =>
    simp only [bind, run]
    split
    · exact ih _ _
    · rfl

def Yields (h : Handler σ) (s : σ) (w : Work α) (a : α) (s' : σ) : Prop := w.run h s = (.ok a, s')

theorem Yields.unique {w : Work α} {a b : α} {t t' : σ} (ha : Yields h s w a t)
    (hb : Yields h s w b t') : a = b ∧ t = t' := by
  have hsame := ha.symm.trans hb
  cases hsame
  exact ⟨rfl, rfl⟩

@[simp] theorem yields_done {a b : α} : Yields h s (done a) b s' ↔ a = b ∧ s = s' := by
  simp [Yields, run]

@[simp] theorem yields_pure {a b : α} : Yields h s (pure a) b s' ↔ a = b ∧ s = s' := yields_done

@[simp] theorem yields_fail {f : Fault} {b : α} : Yields h s (fail f) b s' ↔ False := by
  simp [Yields, run]

@[simp] theorem yields_bind {w : Work α} {k : α → Work β} {b : β} :
    Yields h s (w >>= k) b s' ↔ ∃ a t, Yields h s w a t ∧ Yields h t (k a) b s' := by
  rw [bind_eq, Yields, run_bind]
  constructor
  · intro hrun
    split at hrun
    · rename_i a t hw
      exact ⟨a, t, hw, hrun⟩
    · cases hrun
  · rintro ⟨a, t, hw, hk⟩
    rw [hw]
    exact hk

-- The type of the answer is computed from the request, so it is kept out of the index.
@[simp] theorem yields_ask {r : Request} {x : r.Reply} :
    @Yields (no_index _) σ h s (ask r) x s' ↔ h r s = (.ok x, s') := by
  rw [Yields, ask, run]
  split
  · rename_i y t hr
    simp [hr, run]
  · rename_i f t hr
    simp [hr]

@[simp] theorem yields_ofExcept {e : Except Fault α} {a : α} :
    Yields h s (ofExcept e) a s' ↔ e = .ok a ∧ s = s' := by
  cases e <;> simp [ofExcept]

@[simp] theorem mapError_eq_ok {ε ε' : Type} {f : ε → ε'} {e : Except ε α} {a : α} :
    e.mapError f = .ok a ↔ e = .ok a := by
  cases e with
  | ok b =>
    constructor <;> intro h <;> cases h <;> rfl
  | error f =>
    constructor <;> intro h <;> cases h

theorem mapError_eq_error {ε ε' : Type} {g : ε → ε'} {e : Except ε α} {d : ε'} :
    e.mapError g = .error d ↔ ∃ d₀, e = .error d₀ ∧ g d₀ = d := by
  constructor
  · intro h
    cases e with
    | ok a => cases h
    | error d₀ => exact ⟨d₀, rfl, Except.error.inj h⟩
  · rintro ⟨d₀, rfl, rfl⟩
    rfl

@[simp] theorem yields_require {f : Fault} {o : Option α} {a : α} :
    Yields h s (require f o) a s' ↔ o = some a ∧ s = s' := by
  cases o <;> simp [require]

@[simp] theorem yields_refuseIf {f : Fault} {b : Bool} {u : Unit} :
    Yields h s (refuseIf f b) u s' ↔ b = false ∧ s = s' := by
  cases b <;> simp [refuseIf]

theorem exists_of_isOk {ε : Type} {e : Except ε α} (h : e.isOk = true) : ∃ a, e = .ok a := by
  cases e with
  | ok a => exact ⟨a, rfl⟩
  | error f => cases h

theorem yields_forAll_nil {f : α → Work β} {bs : List β} :
    Yields h s (forAll f []) bs s' ↔ [] = bs ∧ s = s' := yields_done

theorem yields_forAll_cons {f : α → Work β} {a : α} {as : List α} {bs : List β} :
    Yields h s (forAll f (a :: as)) bs s' ↔
      ∃ b t, Yields h s (f a) b t ∧ ∃ cs, Yields h t (forAll f as) cs s' ∧ b :: cs = bs := by
  change Yields h s (f a >>= fun b => forAll f as >>= fun cs => pure (b :: cs)) bs s' ↔ _
  simp only [yields_bind, yields_pure]
  constructor
  · rintro ⟨b, t, hb, cs, t', hcs, e, rfl⟩
    exact ⟨b, t, hb, cs, hcs, e⟩
  · rintro ⟨b, t, hb, cs, hcs, e⟩
    exact ⟨b, t, hb, cs, s', hcs, e, rfl⟩

theorem exists_yields_forAll {f : α → Work β} (hf : ∀ s a, ∃ s' b, Yields h s (f a) b s') (s : σ)
    (as : List α) : ∃ bs s', Yields h s (forAll f as) bs s' := by
  induction as generalizing s with
  | nil => exact ⟨[], s, yields_forAll_nil.2 ⟨rfl, rfl⟩⟩
  | cons a as ih =>
    obtain ⟨t, b, hb⟩ := hf s a
    obtain ⟨bs, s', hbs⟩ := ih t
    exact ⟨b :: bs, s', yields_forAll_cons.2 ⟨b, t, hb, bs, hbs, rfl⟩⟩

/-! Runs that do not end well. -/

variable {f : Fault}

def Fails (h : Handler σ) (s : σ) (w : Work α) (f : Fault) : Prop := (w.run h s).1 = .error f

theorem Yields.not_fails {w : Work α} {a : α} (hw : Yields h s w a s') : ¬ Fails h s w f := by
  rw [Fails, show w.run h s = _ from hw]
  exact fun hne => by cases hne

@[simp] theorem fails_done {a : α} : Fails h s (done a) f ↔ False := by simp [Fails, run]

@[simp] theorem fails_pure {a : α} : Fails h s (pure a : Work α) f ↔ False := fails_done

@[simp] theorem fails_fail {g : Fault} : Fails h s (fail g : Work α) f ↔ g = f := by
  simp [Fails, run]

@[simp] theorem fails_bind {w : Work α} {k : α → Work β} :
    Fails h s (w >>= k) f ↔ Fails h s w f ∨ ∃ a t, Yields h s w a t ∧ Fails h t (k a) f := by
  simp only [Fails, Yields, bind_eq, run_bind]
  rcases w.run h s with ⟨x, t⟩
  cases x with
  | ok a =>
    dsimp only
    constructor
    · exact fun hk => Or.inr ⟨a, t, rfl, hk⟩
    · rintro (hw | ⟨_, _, hw, hk⟩)
      · cases hw
      · cases hw
        exact hk
  | error g =>
    dsimp only
    constructor
    · intro hw
      cases hw
      exact Or.inl rfl
    · rintro (hw | ⟨_, _, hw, -⟩)
      · cases hw
        rfl
      · cases hw

@[simp] theorem fails_ask {r : Request} :
    @Fails (no_index _) σ h s (ask r) f ↔ (h r s).1 = .error f := by
  rw [Fails, ask, run]
  rcases h r s with ⟨x, t⟩
  cases x <;> simp [run]

@[simp] theorem fails_ofExcept {e : Except Fault α} : Fails h s (ofExcept e) f ↔ e = .error f := by
  cases e <;> simp [ofExcept]

@[simp] theorem fails_require {g : Fault} {o : Option α} :
    Fails h s (require g o) f ↔ o = none ∧ g = f := by
  cases o <;> simp [require]

@[simp] theorem fails_refuseIf {g : Fault} {b : Bool} :
    Fails h s (refuseIf g b) f ↔ b = true ∧ g = f := by
  cases b <;> simp [refuseIf]

theorem fails_forAll_cons {k : α → Work β} {a : α} {as : List α} :
    Fails h s (forAll k (a :: as)) f ↔
      Fails h s (k a) f ∨ ∃ b t, Yields h s (k a) b t ∧ Fails h t (forAll k as) f := by
  change Fails h s (k a >>= fun b => forAll k as >>= fun cs => pure (b :: cs)) f ↔ _
  simp only [fails_bind, fails_pure, and_false, exists_false, or_false]

/-! What a program may ask for, whatever the answers. -/

def Only (P : Request → Prop) : Work α → Prop
  | done _ => True
  | fail _ => True
  | step r next => P r ∧ ∀ x, (next x).Only P

variable {P Q : Request → Prop}

theorem only_done (a : α) : (done a).Only P := trivial

theorem only_pure (a : α) : (pure a : Work α).Only P := trivial

theorem only_fail (f : Fault) : (fail f : Work α).Only P := trivial

theorem only_bind {w : Work α} {k : α → Work β} (hw : w.Only P) (hk : ∀ a, (k a).Only P) :
    (w >>= k).Only P := by
  change (w.bind k).Only P
  induction w with
  | done a => exact hk a
  | fail f => trivial
  | step r next ih => exact ⟨hw.1, fun x => ih x (hw.2 x)⟩

theorem only_ask {r : Request} (hr : P r) : (ask r).Only P := ⟨hr, fun _ => trivial⟩

theorem only_ofExcept (e : Except Fault α) : (ofExcept e).Only P := by
  cases e <;> trivial

theorem only_require (f : Fault) (o : Option α) : (require f o).Only P := by
  cases o <;> trivial

theorem only_refuseIf (f : Fault) (b : Bool) : (refuseIf f b).Only P := by
  cases b <;> trivial

theorem only_forAll {f : α → Work β} (hf : ∀ a, (f a).Only P) (as : List α) :
    (forAll f as).Only P := by
  induction as with
  | nil => trivial
  | cons a as ih => exact only_bind (hf a) fun b => only_bind ih fun bs => only_pure (b :: bs)

theorem Only.imp {w : Work α} (hw : w.Only P) (hPQ : ∀ r, P r → Q r) : w.Only Q := by
  induction w with
  | done a => trivial
  | fail f => trivial
  | step r next ih => exact ⟨hPQ r hw.1, fun x => ih x (hw.2 x)⟩

theorem only_of_forall (hP : ∀ r, P r) (w : Work α) : w.Only P := by
  induction w with
  | done a => trivial
  | fail f => trivial
  | step r next ih => exact ⟨hP r, ih⟩

/-- What every permitted request keeps, the whole program keeps. -/
theorem Only.preserves {w : Work α} (hw : w.Only P) {I : σ → Prop}
    (hI : ∀ r s, P r → I s → I (h r s).2) (hs : I s) : I (w.run h s).2 := by
  induction w generalizing s with
  | done a => exact hs
  | fail f => exact hs
  | step r next ih =>
    have hr := hI r s hw.1 hs
    rw [run]
    split
    · rename_i x t heq
      rw [heq] at hr
      exact ih x (hw.2 x) hr
    · rename_i f t heq
      rw [heq] at hr
      exact hr

end FleetControl.Store.Work
