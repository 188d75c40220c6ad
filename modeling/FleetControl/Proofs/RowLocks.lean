import FleetControl.Proofs.Marks

/-!
Row locks of clusters. A load matrix that is read, changed and put back is safe if the cluster's row
is locked before the read. A unit of work is followed from stage to stage, and a stage allows the
matrix of one cluster to be put; what the session has seen by then shows that this cluster is locked,
or that the transaction made it.
-/

namespace FleetControl

open Sql

variable {d e : List Line} {j k : Int}

/-! What a transaction has shown so far. -/

def Born (k : Int) (d : List Line) : Prop := ∃ l ∈ d, l.mark = .birth ∧ l.id? = some k

def Held (k : Int) (d : List Line) : Prop :=
  ∃ before l after, d = before ++ l :: after ∧ l.mark = .lock k ∧ ∀ l' ∈ before, l'.mark ≠ .read k

def HeldFirst (k : Int) (d : List Line) : Prop :=
  ∃ before l after, d = before ++ l :: after ∧ l.mark = .lock k ∧
    ∀ l' ∈ before, ∀ i, l'.mark ≠ .read i

def Found (j k : Int) (d : List Line) : Prop := ∃ l ∈ d, l.mark = .look j ∧ l.id? = some k

def Owned (k : Int) (d : List Line) : Prop := Born k d ∨ ∃ j, HeldFirst j d ∧ Found j k d

theorem HeldFirst.held (h : HeldFirst k d) : Held k d := by
  obtain ⟨before, l, after, hd, hl, hreads⟩ := h
  exact ⟨before, l, after, hd, hl, fun l' hl' => hreads l' hl' k⟩

theorem Born.append (h : Born k d) (e : List Line) : Born k (d ++ e) := by
  obtain ⟨l, hl, hborn⟩ := h
  exact ⟨l, List.mem_append_left e hl, hborn⟩

theorem Found.append (h : Found j k d) (e : List Line) : Found j k (d ++ e) := by
  obtain ⟨l, hl, hfound⟩ := h
  exact ⟨l, List.mem_append_left e hl, hfound⟩

theorem HeldFirst.append (h : HeldFirst k d) (e : List Line) : HeldFirst k (d ++ e) := by
  obtain ⟨before, l, after, rfl, hl⟩ := h
  exact ⟨before, l, after ++ e, by simp, hl⟩

theorem Owned.append (h : Owned k d) (e : List Line) : Owned k (d ++ e) := by
  rcases h with h | ⟨j, hheld, hfound⟩
  · exact Or.inl (h.append e)
  · exact Or.inr ⟨j, hheld.append e, hfound.append e⟩

theorem split_append {before after : List Line} {l : Line} (h : d ++ e = before ++ l :: after) :
    (∃ rest, d = before ++ l :: rest) ∨ l ∈ e ∧ ∃ rest, before = d ++ rest := by
  rcases List.append_eq_append_iff.1 h with ⟨rest, hbefore, he⟩ | ⟨rest, hd, hafter⟩
  · exact Or.inr ⟨by simp [he], rest, hbefore⟩
  · cases rest with
    | nil =>
      obtain rfl : l :: after = e := hafter
      exact Or.inr ⟨List.mem_cons_self, [], by simpa using hd.symm⟩
    | cons l' rest =>
      obtain ⟨rfl, -⟩ := List.cons.inj hafter
      exact Or.inl ⟨rest, hd⟩

structure Sound (d : List Line) : Prop where
  locks : ∀ l ∈ d, ∀ l' ∈ d, ∀ j j', l.mark = .lock j → l'.mark = .lock j' → j = j'
  writes : ∀ before l after k, d = before ++ l :: after → l.mark = .write k → Owned k before

theorem Sound.append_other (h : Sound d) (he : ∀ l ∈ e, l.mark = .other) : Sound (d ++ e) where
  locks l hl l' hl' j j' hj hj' := by
    have hold : ∀ l ∈ d ++ e, ∀ j, l.mark = .lock j → l ∈ d := by
      intro l hl j hj
      rcases List.mem_append.1 hl with hl | hl
      · exact hl
      · exact absurd ((he l hl).symm.trans hj) nofun
    exact h.locks l (hold l hl j hj) l' (hold l' hl' j' hj') j j' hj hj'
  writes before l after k hsplit hl := by
    rcases split_append hsplit with ⟨rest, hd⟩ | ⟨hle, -⟩
    · exact h.writes before l rest k hd hl
    · exact absurd ((he l hle).symm.trans hl) nofun

inductive Stage where
  | fresh
  | loose
  | locked (id : Int)
  | found (lock id : Int)
  | born (id : Int)

namespace Stage

def lock? : Stage → Option Int
  | locked id | found id _ => some id
  | _ => none

def target? : Stage → Option Int
  | found _ id | born id => some id
  | _ => none

def Allows : Stage → Mark → Prop
  -- A fresh unit of work may still lock any cluster, so it may not yet read of any.
  | fresh, .lock _ | fresh, .look _ | fresh, .other => True
  | fresh, _ => False
  | locked id, .look id' => id' = id
  | locked _, _ => False
  | _, .lock _ => False
  | g, .write id => g.target? = some id
  | _, _ => True

def after : Stage → (r : Store.Request) → r.Reply → Stage
  | fresh, .lockCluster id, _ => locked id.val
  | loose, .createCluster _, c => born c.id.val
  | locked id, .fetchClusters _, c :: _ => found id c.id.val
  | g, _, _ => g

def Keeps (g : Stage) (r : Store.Request) : Prop := g.Allows r.mark ∧ ∀ x, g.after r x = g

variable {g : Stage} {m : Mark}

structure Shows (g : Stage) (d : List Line) : Prop where
  locks : ∀ l ∈ d, ∀ j, l.mark = .lock j → g.lock? = some j
  held : ∀ j, g.lock? = some j → HeldFirst j d
  reads : g = fresh → ∀ l ∈ d, ∀ i, l.mark ≠ .read i
  target : ∀ k, g.target? = some k → Owned k d
  writes : ∀ before l after k, d = before ++ l :: after → l.mark = .write k → Owned k before

theorem Allows.target (h : g.Allows (.write k)) : g.target? = some k := by
  cases g <;> first | exact h | exact False.elim h

theorem keeps_of_target {r : Store.Request} (hg : g.target? = some k)
    (hlock : ∀ j, r.mark ≠ .lock j) (hwrite : ∀ i, r.mark = .write i → i = k) : g.Keeps r := by
  have hallows : g.Allows r.mark := by
    cases hm : r.mark with
    | lock j => exact absurd hm (hlock j)
    | write i =>
      obtain rfl := hwrite i hm
      cases g <;> first | exact hg | cases hg
    | _ => cases g <;> trivial
  refine ⟨hallows, fun x => ?_⟩
  cases g with
  | found | born => cases r <;> rfl
  | _ => cases hg

theorem keeps_loose {r : Store.Request} (hlock : ∀ j, r.mark ≠ .lock j)
    (hwrite : ∀ k, r.mark ≠ .write k) (hbirth : r.mark ≠ .birth) : loose.Keeps r := by
  have hallows : loose.Allows r.mark := by
    cases hm : r.mark with
    | lock j => exact absurd hm (hlock j)
    | write k => exact absurd hm (hwrite k)
    | _ => trivial
  refine ⟨hallows, fun x => ?_⟩
  cases r with
  | createCluster draft => exact absurd rfl hbirth
  | _ => rfl

theorem allowsReads_of_target (hg : g.target? = some k) : Store.AllowsReads g.Keeps := by
  intro r hr
  obtain ⟨hlock, hwrite, -⟩ := Store.mark_of_fetches hr
  exact keeps_of_target hg hlock fun i hi => absurd hi (hwrite i)

theorem allowsReads_loose : Store.AllowsReads loose.Keeps := by
  intro r hr
  obtain ⟨hlock, hwrite, hbirth⟩ := Store.mark_of_fetches hr
  exact keeps_loose hlock hwrite hbirth

theorem Shows.sound (h : g.Shows d) : Sound d := by
  refine ⟨fun l hl l' hl' j j' hj hj' => ?_, h.writes⟩
  have hsome := h.locks l hl j hj
  rw [h.locks l' hl' j' hj'] at hsome
  exact (Option.some.inj hsome).symm

theorem Shows.append (h : g.Shows d) (hm : g.Allows m) (hlock : ∀ j, m ≠ .lock j)
    (he : ∀ l ∈ e, l.mark = m) : g.Shows (d ++ e) where
  locks l hl j hj := by
    rcases List.mem_append.1 hl with hl | hl
    · exact h.locks l hl j hj
    · exact absurd ((he l hl).symm.trans hj) (hlock j)
  held j hj := (h.held j hj).append e
  reads hg l hl i hi := by
    subst hg
    rcases List.mem_append.1 hl with hl | hl
    · exact h.reads rfl l hl i hi
    · rw [← he l hl, hi] at hm
      exact hm
  target k hk := (h.target k hk).append e
  writes before l after k hsplit hl := by
    rcases split_append hsplit with ⟨rest, hd⟩ | ⟨hle, rest, hbefore⟩
    · exact h.writes before l rest k hd hl
    · rw [← he l hle, hl] at hm
      rw [hbefore]
      exact (h.target k hm.target).append rest

/-! The three steps from stage to stage. -/

theorem Shows.lock {l : Line} (h : fresh.Shows d) (hl : l.mark = .lock j) :
    (locked j).Shows (d ++ [l]) where
  locks l' hl' j' hj' := by
    rcases List.mem_append.1 hl' with hl' | hl'
    · exact absurd (h.locks l' hl' j' hj') nofun
    · rw [List.mem_singleton.1 hl', hl] at hj'
      cases hj'
      rfl
  held j' hj' := by
    cases hj'
    exact ⟨d, l, [], rfl, hl, h.reads rfl⟩
  reads hg := absurd hg nofun
  target k hk := absurd hk nofun
  writes before l' after k hsplit hl' := by
    rcases split_append hsplit with ⟨rest, hd⟩ | ⟨hle, -⟩
    · exact h.writes before l' rest k hd hl'
    · rw [List.mem_singleton.1 hle, hl] at hl'
      cases hl'

theorem Shows.find (h : (locked j).Shows d) (hfound : Found j k d) : (found j k).Shows d where
  locks := h.locks
  held := h.held
  reads hg := absurd hg nofun
  target k' hk' := by
    cases hk'
    exact Or.inr ⟨j, h.held j rfl, hfound⟩
  writes := h.writes

theorem Shows.bear (h : loose.Shows d) (hborn : Born k d) : (born k).Shows d where
  locks := h.locks
  held := h.held
  reads hg := absurd hg nofun
  target k' hk' := by
    cases hk'
    exact Or.inl hborn
  writes := h.writes

theorem shows_nil (hlock : g.lock? = none) (htarget : g.target? = none) : g.Shows [] where
  locks l hl := absurd hl List.not_mem_nil
  held j hj := by
    rw [hlock] at hj
    cases hj
  reads _ l hl := absurd hl List.not_mem_nil
  target k hk := by
    rw [htarget] at hk
    cases hk
  writes before l after k hsplit := absurd hsplit (by simp)

end Stage

namespace Sql.Session

def Leads (s : Session) (d : List Line) (s' : Session) : Prop :=
  ∃ sts : List Statement, s' = sts.foldl told s ∧ d = s.dialogue sts

variable {s s' s'' : Session} {P : Statement → Prop}

theorem leads_refl (s : Session) : s.Leads [] s := ⟨[], rfl, rfl⟩

theorem Leads.trans (h : s.Leads d s') (h' : s'.Leads e s'') : s.Leads (d ++ e) s'' := by
  obtain ⟨sts, rfl, rfl⟩ := h
  obtain ⟨sts', rfl, rfl⟩ := h'
  refine ⟨sts ++ sts', (List.foldl_append ..).symm, (dialogue_append s sts sts').symm⟩

theorem Leads.eq_of_told {st : Statement} (h : s.Leads e (s.told st)) : e = [⟨st, s.heard st⟩] := by
  obtain ⟨sts, hs, rfl⟩ := h
  rw [eq_singleton_of_told hs.symm]
  rfl

theorem Hears.leads (h : Hears P s s') : ∃ e, s.Leads e s' ∧ ∀ l ∈ e, P l.statement := by
  obtain ⟨sts, rfl, hsts⟩ := h
  exact ⟨s.dialogue sts, ⟨sts, rfl, rfl⟩, fun l hl => hsts _ (statement_mem_of_mem_dialogue hl)⟩

theorem Leads.eq_dialogue {replies : List Reply} {refused : List String}
    (h : (start replies refused).Leads d s') : d = (start replies refused).dialogue s'.sent := by
  obtain ⟨sts, rfl, rfl⟩ := h
  rw [sent_foldl_told]
  rfl

def Soundly (s s' : Session) : Prop := ∃ d, s.Leads d s' ∧ Sound d

theorem soundly_bind {ε α β : Type} {s₀ : Session} {x : Exchange ε α} {k : α → Exchange ε β}
    (hx : s₀.Soundly (x s).2) (hk : ∀ a s', x s = (.ok a, s') → s₀.Soundly (k a s').2) :
    s₀.Soundly ((x >>= k) s).2 := by
  rcases bind_cases x k s with ⟨a, s', ha, hrun⟩ | ⟨f, s', hf, hrun⟩
  · rw [hrun]
    exact hk a s' ha
  · rw [hrun]
    rw [hf] at hx
    exact hx

end Sql.Session

namespace Store

open Sql.Session Database

variable {α β : Type} {g : Stage} {r : Request} {s₀ s : Session}

/-! One request. -/

def Advances (g : Stage) (d : List Line) (r : Request) (s : Session) : Prop :=
  ∃ e, s.Leads e (exchange r s).2 ∧ Sound (d ++ e) ∧
    ∀ x s', exchange r s = (.ok x, s') → (g.after r x).Shows (d ++ e)

theorem lockCluster_advances {id : ClusterId} (hs : Stage.fresh.Shows d) (s : Session) :
    Advances .fresh d (.lockCluster id) s := by
  obtain ⟨e, hlead, hmarks⟩ := (exchange_mark (.lockCluster id) s).leads
  have hlocks : ∀ l ∈ d ++ e, ∀ j, l.mark = .lock j → j = id.val := by
    intro l hl j hj
    rcases List.mem_append.1 hl with hl | hl
    · exact absurd (hs.locks l hl j hj) nofun
    · have hmark : Mark.lock j = .lock id.val := hj.symm.trans (hmarks l hl)
      cases hmark
      rfl
  refine ⟨e, hlead, ⟨fun l hl l' hl' j j' hj hj' => ?_, fun before l after k hsplit hl => ?_⟩, ?_⟩
  · rw [hlocks l hl j hj, hlocks l' hl' j' hj']
  · rcases split_append hsplit with ⟨rest, hd⟩ | ⟨hle, -⟩
    · exact hs.writes before l rest k hd hl
    · exact absurd ((hmarks l hle).symm.trans hl) nofun
  · intro x s' hrun
    obtain ⟨st, hst, hs'⟩ := lockCluster_ok hrun
    rw [hrun, hs'] at hlead
    rw [hlead.eq_of_told]
    exact hs.lock hst

theorem advances_of_after (hs : g.Shows d) (hr : g.Allows r.mark)
    (hlock : ∀ id, r ≠ .lockCluster id) (s : Session)
    (hafter : ∀ e x s', exchange r s = (.ok x, s') → s.Leads e s' → g.Shows (d ++ e) →
      (g.after r x).Shows (d ++ e)) : Advances g d r s := by
  obtain ⟨e, hlead, hmarks⟩ := (exchange_mark r s).leads
  have hshows := hs.append hr (mark_ne_lock hlock) hmarks
  refine ⟨e, hlead, hshows.sound, fun x s' hrun => ?_⟩
  rw [hrun] at hlead
  exact hafter e x s' hrun hlead hshows

theorem exchange_advances (hs : g.Shows d) (hr : g.Allows r.mark) (s : Session) :
    Advances g d r s := by
  cases r with
  | lockCluster id =>
    cases g with
    | fresh => exact lockCluster_advances hs s
    | _ => exact False.elim hr
  | createCluster draft =>
    refine advances_of_after hs hr (by simp) s fun e c s' hrun hlead hshows => ?_
    cases g with
    | loose =>
      obtain ⟨st, rfl, hst, hid⟩ := createCluster_ok hrun
      obtain rfl := hlead.eq_of_told
      exact hshows.bear ⟨_, List.mem_append_right d List.mem_cons_self, hst, hid⟩
    | _ => exact hshows
  | fetchClusters f =>
    refine advances_of_after hs hr (by simp) s fun e cs s' hrun hlead hshows => ?_
    cases g with
    | locked id =>
      cases cs with
      | nil => exact hshows
      | cons c cs =>
        cases hf : f.id with
        | none =>
          rw [Request.mark, hf] at hr
          exact False.elim hr
        | some asked =>
          rw [Request.mark, hf] at hr
          obtain rfl : asked.val = id := hr
          obtain ⟨st, rfl, hst, hid⟩ := fetchClusters_ok hf hrun
          obtain rfl := hlead.eq_of_told
          exact hshows.find ⟨_, List.mem_append_right d List.mem_cons_self, hst, hid c rfl⟩
    | _ => exact hshows
  | _ =>
    refine advances_of_after hs hr (by simp) s fun e x s' hrun hlead hshows => ?_
    cases g <;> exact hshows

/-! A unit of work. -/

namespace Work

/-- Every request is allowed at the stage the work has come to by then, and the end satisfies `Q`. -/
def Follows (g : Stage) (Q : α → Stage → Prop) : Work α → Prop
  | done a => Q a g
  | fail _ => True
  | step r next => g.Allows r.mark ∧ ∀ x, (next x).Follows (g.after r x) Q

variable {Q : α → Stage → Prop} {w : Work α}

@[simp] theorem follows_done {a : α} : (done a).Follows g Q ↔ Q a g := Iff.rfl

@[simp] theorem follows_pure {a : α} : (pure a : Work α).Follows g Q ↔ Q a g := Iff.rfl

@[simp] theorem follows_fail {f : Fault} : (fail f : Work α).Follows g Q ↔ True := Iff.rfl

@[simp] theorem follows_ask {r : Request} {Q : r.Reply → Stage → Prop} :
    @Follows (no_index _) g Q (ask r) ↔ g.Allows r.mark ∧ ∀ x, Q x (g.after r x) := Iff.rfl

@[simp] theorem follows_require {f : Fault} {o : Option α} :
    (require f o).Follows g Q ↔ ∀ a ∈ o, Q a g := by
  cases o <;> simp [require]

@[simp] theorem follows_bind {k : α → Work β} {Q : β → Stage → Prop} :
    (w >>= k).Follows g Q ↔ w.Follows g fun a g' => (k a).Follows g' Q := by
  change (w.bind k).Follows g Q ↔ _
  induction w generalizing g with
  | done a => exact Iff.rfl
  | fail f => exact Iff.rfl
  | step r next ih => exact and_congr_right fun _ => forall_congr' fun x => ih x

theorem Follows.imp {Q' : α → Stage → Prop} (h : w.Follows g Q) (hQ : ∀ a g', Q a g' → Q' a g') :
    w.Follows g Q' := by
  induction w generalizing g with
  | done a => exact hQ a g h
  | fail f => trivial
  | step r next ih => exact ⟨h.1, fun x => ih x (h.2 x)⟩

theorem Only.follows (hw : w.Only g.Keeps) (hQ : ∀ a, Q a g) : w.Follows g Q := by
  induction w with
  | done a => exact hQ a
  | fail f => trivial
  | step r next ih =>
    refine ⟨hw.1.1, fun x => ?_⟩
    rw [hw.1.2 x]
    exact ih x (hw.2 x)

theorem Follows.sound (hw : w.Follows g Q) (hs : g.Shows d) (hd : s₀.Leads d s) :
    s₀.Soundly (transact w s).2 := by
  -- The dialogue `d` so far grows with each request, and shows the stage that is reached.
  induction w generalizing g d s with
  | done a => exact ⟨d, hd, hs.sound⟩
  | fail f => exact ⟨d, hd, hs.sound⟩
  | step r next ih =>
    obtain ⟨e, hlead, hsound, hnext⟩ := exchange_advances hs hw.1 s
    rw [transact, run]
    rcases hrun : answer r s with ⟨f | x, s'⟩
    · rw [show exchange r s = _ from hrun] at hlead
      exact ⟨d ++ e, hd.trans hlead, hsound⟩
    · rw [show exchange r s = _ from hrun] at hlead
      exact ih x (hw.2 x) (hnext x s' hrun) (hd.trans hlead)

end Work

def Operation.Follows (g : Stage) : Operation α → Prop
  | .refuse _ => True
  | .query w | .update w => w.Follows g fun _ _ => True

theorem Operation.follows_guarded {refusal : Option Fault} {op : Operation α} (h : op.Follows g) :
    (op.guarded refusal).Follows g := by
  cases refusal with
  | none => exact h
  | some f => trivial

/-- A transaction that follows the stages from its beginning is sound. -/
theorem Operation.Follows.sound {op : Operation α} (h : op.Follows g) (hg : g.Allows .other)
    (hs : g.Shows []) (s : Session) : s.Soundly (perform op s).2 := by
  obtain ⟨e, hbegin, hopened⟩ := (sends_begin (Q := (· = .other)) rfl s).leads
  have hshows : g.Shows e := hs.append hg nofun hopened
  cases op with
  | refuse f => exact ⟨[], leads_refl s, hs.sound⟩
  | query w =>
    refine soundly_bind ⟨e, hbegin, hshows.sound⟩ fun _ s' hrun => ?_
    rw [hrun] at hbegin
    exact Work.Follows.sound h hshows hbegin
  | update w =>
    refine soundly_bind ⟨e, hbegin, hshows.sound⟩ fun _ s' hrun => ?_
    rw [hrun] at hbegin
    have hwork : s.Soundly (transact w s').2 := Work.Follows.sound h hshows hbegin
    refine soundly_bind hwork fun a s'' hrun => ?_
    rw [hrun] at hwork
    obtain ⟨d, hd, hsound⟩ := hwork
    have hclose : Sends (·.mark = .other) (commit >>= fun _ => pure a) :=
      moves_bind (sends_commit (Q := (· = .other)) rfl) fun _ => moves_pure a
    obtain ⟨e', hlead, hother⟩ := (hclose s'').leads
    exact ⟨d ++ e', hd.trans hlead, hsound.append_other hother⟩

end Store
end FleetControl
