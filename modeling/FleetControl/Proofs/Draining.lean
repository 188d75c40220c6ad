import FleetControl.Proofs.LoadMatrix
import Mathlib.Data.Option.Defs

/-!
Columns of a load matrix that leave and columns that join. A column leaves only when it is at zero in
every row, and joins at zero, so no row comes to split more or less than it did: a matrix that fits the
old sub-clusters fits the new ones afterwards.
-/

namespace FleetControl

namespace SortedMap

variable {α β γ ε : Type} [Ord α] [Std.LawfulEqOrd α] [DecidableEq α] {f : α → β → Except ε γ}

theorem lookup_mapEntriesExcept {l : List (α × β)}
    {l' : { l' : List (α × γ) // l'.map Prod.fst = l.map Prod.fst }}
    (h : mapEntriesExcept f l = .ok l') (x : α) :
    Option.Rel (fun v w => f x v = .ok w) (lookup x l) (lookup x l'.1) := by
  induction l with
  | nil =>
    cases h
    exact .none
  | cons e l ih =>
    obtain ⟨k, v⟩ := e
    rw [mapEntriesExcept] at h
    split at h
    · cases h
    · rename_i w hw
      split at h
      · cases h
      · rename_i rest hkeys hrest
        cases h
        rw [lookup_cons, lookup_cons]
        by_cases hx : x = k
        · rw [if_pos hx, if_pos hx, hx]
          exact .some hw
        · rw [if_neg hx, if_neg hx]
          exact ih hrest

omit [Ord α] [Std.LawfulEqOrd α] [DecidableEq α] in
theorem exists_mapEntriesExcept {l : List (α × β)} (h : ∀ e ∈ l, ∃ w, f e.1 e.2 = .ok w) :
    ∃ l', mapEntriesExcept f l = .ok l' := by
  induction l with
  | nil => exact ⟨_, rfl⟩
  | cons e l ih =>
    obtain ⟨k, v⟩ := e
    obtain ⟨w, hw⟩ := h (k, v) List.mem_cons_self
    obtain ⟨⟨rest, hkeys⟩, hrest⟩ := ih fun e he => h e (List.mem_cons_of_mem _ he)
    refine ⟨⟨(k, w) :: rest, by simp [hkeys]⟩, ?_⟩
    simp only [mapEntriesExcept, hw, hrest]

theorem get?_mapExcept {m : SortedMap α β} {m' : SortedMap α γ} (h : m.mapExcept f = .ok m')
    (k : α) : Option.Rel (fun v w => f k v = .ok w) (m.get? k) (m'.get? k) := by
  rw [mapExcept] at h
  split at h
  · cases h
  · rename_i l hkeys hl
    cases h
    exact lookup_mapEntriesExcept hl k

theorem exists_mapExcept {m : SortedMap α β}
    (h : ∀ k v, m.get? k = some v → ∃ w, f k v = .ok w) : ∃ m', m.mapExcept f = .ok m' := by
  obtain ⟨⟨l, hkeys⟩, hl⟩ := exists_mapEntriesExcept fun e he => h e.1 e.2 (mem_entries.1 he)
  refine ⟨⟨l, hkeys ▸ m.increasing⟩, ?_⟩
  simp only [mapExcept, hl]

end SortedMap

namespace LoadMatrix

variable {row row' : LoadRow} {old new removed added : List String} {bfe : String}

/-- What became of a row when the sub-clusters of its cluster changed. -/
structure RowRebound (old new : List String) (row row' : LoadRow) : Prop where
  kept : ∀ {n}, (n ∈ old ↔ n ∈ new) → row'.get? n = row.get? n
  dropped : ∀ {n}, n ∈ old → n ∉ new → row'.get? n = none
  joined : ∀ {n}, n ∉ old → n ∈ new → row'.get? n = some 0
  sink : row'.get? blackhole = row.get? blackhole

def Rebound (old new : List String) (m m' : LoadMatrix) : Prop :=
  ∀ b, Option.Rel (RowRebound old new) (m.rows.get? b) (m'.rows.get? b)

/-! One row. -/

theorem drop_eq_ok : drop bfe removed row = .ok row' ↔
    (∀ n ∈ removed, (row.get? n).getD 0 = 0) ∧ row' = removed.foldl SortedMap.erase row := by
  induction removed generalizing row with
  | nil =>
    rw [drop, Except.ok.injEq, eq_comm]
    simp
  | cons n removed ih =>
    rw [drop]
    split
    · rename_i hweight
      constructor
      · intro h
        cases h
      · exact fun h => absurd (h.1 n List.mem_cons_self) hweight
    · rename_i hweight
      have hzero : (row.get? n).getD 0 = 0 := Classical.not_not.1 hweight
      -- A name that comes again was at zero before it left, and is at zero for not being there.
      have hrest : ∀ x, ((row.erase n).get? x).getD 0 = 0 ↔ (row.get? x).getD 0 = 0 := by
        intro x
        rw [SortedMap.get?_erase]
        split
        · rename_i hx
          rw [hx, hzero]
          simp
        · rfl
      simp only [ih, hrest, List.forall_mem_cons, hzero, true_and, List.foldl_cons]

theorem get?_foldl_erase (names : List String) (row : LoadRow) (x : String) :
    (names.foldl SortedMap.erase row).get? x = if x ∈ names then none else row.get? x := by
  induction names generalizing row with
  | nil => simp
  | cons n names ih =>
    rw [List.foldl_cons, ih, SortedMap.get?_erase]
    by_cases hx : x = n <;> simp [hx]

theorem get?_join (names : List String) (row : LoadRow) (x : String) :
    (join names row).get? x = if x ∈ names then some ((row.get? x).getD 0) else row.get? x := by
  induction names generalizing row with
  | nil => simp [join]
  | cons n names ih =>
    rw [join, List.foldl_cons, ← join, ih]
    by_cases hx : x = n
    · subst hx
      cases hrow : row.get? x <;> simp [SortedMap.contains, hrow]
    · have hsame : (if row.contains n then row else row.insert n 0).get? x = row.get? x := by
        split
        · rfl
        · exact SortedMap.get?_insert_ne row 0 hx
      rw [hsame]
      simp [hx]

theorem sum_erase (row : LoadRow) (n : String) :
    sum row = ((row.get? n).getD 0).toInt + sum (row.erase n) := by
  cases hrow : row.get? n with
  | none =>
    have hsame : row.erase n = row := by
      refine SortedMap.ext fun x => ?_
      rw [SortedMap.get?_erase]
      split
      · rename_i hx
        rw [hx, hrow]
      · rfl
    rw [hsame]
    simp
  | some w =>
    have hback : (row.erase n).insert n w = row := by
      refine SortedMap.ext fun x => ?_
      rw [SortedMap.get?_insert, SortedMap.get?_erase]
      split
      · rename_i hx
        rw [hx, hrow]
      · rfl
    have hgone : (row.erase n).get? n = none := by simp
    have hsum := sum_insert w hgone
    rw [hback] at hsum
    rw [hsum, Option.getD_some]

theorem sum_foldl_erase (hzero : ∀ n ∈ removed, (row.get? n).getD 0 = 0) :
    sum (removed.foldl SortedMap.erase row) = sum row := by
  induction removed generalizing row with
  | nil => rfl
  | cons n removed ih =>
    have hrest : ∀ x ∈ removed, ((row.erase n).get? x).getD 0 = 0 := by
      intro x hx
      rw [SortedMap.get?_erase]
      split
      · rfl
      · exact hzero x (List.mem_cons_of_mem n hx)
    rw [List.foldl_cons, ih hrest, sum_erase row n, hzero n List.mem_cons_self]
    simp

theorem sum_join (names : List String) (row : LoadRow) : sum (join names row) = sum row := by
  induction names generalizing row with
  | nil => rfl
  | cons n names ih =>
    rw [join, List.foldl_cons, ← join, ih]
    split
    · rfl
    · rename_i hnew
      have hnone : row.get? n = none := by simpa [SortedMap.contains] using hnew
      rw [sum_insert 0 hnone]
      simp

theorem RowRebound.fits (h : RowRebound old new row row') (hrow : RowFits old row)
    (hsum : sum row' = sum row) : RowFits new row' where
  columns {n w} hw := by
    by_cases hnew : n ∈ new
    · exact Or.inr hnew
    · by_cases hold : n ∈ old
      · rw [h.dropped hold hnew] at hw
        cases hw
      · rw [h.kept (iff_of_false hold hnew)] at hw
        exact Or.inl ((hrow.columns hw).resolve_right hold)
  weights {n w} hw := by
    by_cases hsame : n ∈ old ↔ n ∈ new
    · rw [h.kept hsame] at hw
      exact hrow.weights hw
    · by_cases hold : n ∈ old
      · rw [h.dropped hold fun hnew => hsame (iff_of_true hold hnew)] at hw
        cases hw
      · have hnew : n ∈ new := Classical.not_not.1 fun hnew => hsame (iff_of_false hold hnew)
        rw [h.joined hold hnew] at hw
        cases hw
        decide
  total := hsum.trans hrow.total
  complete {n} hnew := by
    rw [SortedMap.contains]
    by_cases hold : n ∈ old
    · rw [h.kept (iff_of_true hold hnew)]
      exact hrow.complete hold
    · rw [h.joined hold hnew]
      rfl

/-! The whole matrix. -/

variable {m m' : LoadMatrix} {bfes : List String}

theorem map_eq_ok {ε α β : Type} {f : α → β} {e : Except ε α} {b : β} :
    e.map f = .ok b ↔ ∃ a, e = .ok a ∧ f a = b := by
  cases e <;> simp [Except.map]

theorem rows_of_rebind (h : m.rebind removed added = .ok m') (b : String) :
    Option.Rel (fun row row' => (∀ n ∈ removed, (row.get? n).getD 0 = 0) ∧
      row' = join added (removed.foldl SortedMap.erase row)) (m.rows.get? b) (m'.rows.get? b) := by
  obtain ⟨rows, hrows, rfl⟩ := map_eq_ok.1 h
  have hrel := SortedMap.get?_mapExcept hrows b
  generalize m.rows.get? b = before at hrel
  dsimp only
  generalize rows.get? b = after at hrel
  cases hrel with
  | none => exact .none
  | some hrow =>
    obtain ⟨_, hdrop, rfl⟩ := map_eq_ok.1 hrow
    obtain ⟨hzero, rfl⟩ := drop_eq_ok.1 hdrop
    exact .some ⟨hzero, rfl⟩

/-- A matrix is rebound when every column that leaves is at zero in every row. -/
theorem exists_rebind_iff : (∃ m', m.rebind removed added = .ok m') ↔
    ∀ b row, m.rows.get? b = some row → ∀ n ∈ removed, (row.get? n).getD 0 = 0 := by
  constructor
  · rintro ⟨m', h⟩ b row hrow
    have hrel := rows_of_rebind h b
    rw [hrow] at hrel
    generalize m'.rows.get? b = after at hrel
    cases hrel with
    | some hrow => exact hrow.1
  · intro hzero
    obtain ⟨rows, hrows⟩ : ∃ rows, m.rows.mapExcept (fun bfe row =>
        (drop bfe removed row).map (join added)) = .ok rows := by
      refine SortedMap.exists_mapExcept fun b row hrow => ?_
      exact ⟨_, map_eq_ok.2 ⟨_, drop_eq_ok.2 ⟨hzero b row hrow, rfl⟩, rfl⟩⟩
    exact ⟨⟨rows⟩, map_eq_ok.2 ⟨rows, hrows, rfl⟩⟩

section

variable (hremoved : ∀ n, n ∈ removed ↔ n ∈ old ∧ n ∉ new)
  (hadded : ∀ n, n ∈ added ↔ n ∈ new ∧ n ∉ old)

include hremoved hadded

theorem rowRebound_join (hrow : RowFits old row) (hold : blackhole ∉ old) (hnew : blackhole ∉ new) :
    RowRebound old new row (join added (removed.foldl SortedMap.erase row)) where
  kept {n} hsame := by
    have hstays : n ∉ removed := fun h => ((hremoved n).1 h).2 (hsame.1 ((hremoved n).1 h).1)
    have hwas : n ∉ added := fun h => ((hadded n).1 h).2 (hsame.2 ((hadded n).1 h).1)
    rw [get?_join, if_neg hwas, get?_foldl_erase, if_neg hstays]
  dropped {n} hn hgone := by
    have hwas : n ∉ added := fun h => ((hadded n).1 h).2 hn
    rw [get?_join, if_neg hwas, get?_foldl_erase, if_pos ((hremoved n).2 ⟨hn, hgone⟩)]
  joined {n} hfresh hn := by
    -- A column is for a bound sub-cluster or the sink, and the new name is neither's.
    have hnone : row.get? n = none := by
      cases hw : row.get? n with
      | none => rfl
      | some w =>
        rcases hrow.columns hw with rfl | hbound
        · exact absurd hn hnew
        · exact absurd hbound hfresh
    have hstays : n ∉ removed := fun h => hfresh ((hremoved n).1 h).1
    rw [get?_join, if_pos ((hadded n).2 ⟨hn, hfresh⟩), get?_foldl_erase, if_neg hstays, hnone]
    rfl
  sink := by
    have hstays : blackhole ∉ removed := fun h => hold ((hremoved _).1 h).1
    have hwas : blackhole ∉ added := fun h => hnew ((hadded _).1 h).1
    rw [get?_join, if_neg hwas, get?_foldl_erase, if_neg hstays]

theorem Fits.rebind (h : m.Fits bfes old) (hnew : blackhole ∉ new)
    (hrebind : m.rebind removed added = .ok m') : m'.Fits bfes new ∧ Rebound old new m m' := by
  have hrow : ∀ {b row}, m.rows.get? b = some row →
      RowRebound old new row (join added (removed.foldl SortedMap.erase row)) :=
    fun hb => rowRebound_join hremoved hadded (h.fitting hb) h.unreserved hnew
  refine ⟨⟨hnew, fun {b} => ?_, fun {b row'} hb => ?_⟩, fun b => ?_⟩
  · rw [← h.rows, SortedMap.contains, SortedMap.contains]
    have hrel := rows_of_rebind hrebind b
    generalize m.rows.get? b = before at hrel
    generalize m'.rows.get? b = after at hrel
    cases hrel <;> rfl
  · have hrel := rows_of_rebind hrebind b
    rw [hb] at hrel
    generalize hbefore : m.rows.get? b = before at hrel
    cases hrel with
    | some hchanged =>
      obtain ⟨hzero, rfl⟩ := hchanged
      apply (hrow hbefore).fits (h.fitting hbefore)
      rw [sum_join, sum_foldl_erase hzero]
  · have hrel := rows_of_rebind hrebind b
    generalize hbefore : m.rows.get? b = before at hrel
    generalize m'.rows.get? b = after at hrel
    cases hrel with
    | none => exact .none
    | some hchanged =>
      obtain ⟨-, rfl⟩ := hchanged
      exact .some (hrow hbefore)

end

theorem Fits.getD_eq_zero (h : m.Fits bfes old) {b n : String} (hrow : m.rows.get? b = some row)
    (hn : n ∈ old) : (row.get? n).getD 0 = 0 ↔ row.get? n = some 0 := by
  obtain ⟨w, hw⟩ := SortedMap.contains_iff.1 ((h.fitting hrow).complete hn)
  rw [hw, Option.getD_some, Option.some.injEq]

/-! The names that leave and those that join count as sets. -/

section

variable {removed' added' : List String} (hremoved : ∀ n, n ∈ removed ↔ n ∈ removed')
  (hadded : ∀ n, n ∈ added ↔ n ∈ added')

include hremoved hadded

theorem join_foldl_erase_congr (row : LoadRow) :
    join added (removed.foldl SortedMap.erase row) =
      join added' (removed'.foldl SortedMap.erase row) := by
  refine SortedMap.ext fun n => ?_
  simp only [get?_join, get?_foldl_erase, hremoved n, hadded n]

theorem rebind_congr (h : m.rebind removed added = .ok m') :
    m.rebind removed' added' = .ok m' := by
  have hzero : ∀ b row, m.rows.get? b = some row → ∀ n ∈ removed', (row.get? n).getD 0 = 0 :=
    fun b row hrow n hn => exists_rebind_iff.1 ⟨m', h⟩ b row hrow n ((hremoved n).2 hn)
  obtain ⟨m'', h'⟩ := exists_rebind_iff.2 hzero
  suffices hrows : ∀ b, m''.rows.get? b = m'.rows.get? b by
    rw [h', show m'' = m' from congrArg LoadMatrix.mk (SortedMap.ext hrows)]
  intro b
  have hrel := rows_of_rebind h b
  have hrel' := rows_of_rebind h' b
  generalize m.rows.get? b = before at hrel hrel'
  generalize m'.rows.get? b = after at hrel
  generalize m''.rows.get? b = after' at hrel'
  cases hrel with
  | none =>
    cases hrel' with
    | none => rfl
  | some hchanged =>
    cases hrel' with
    | some hchanged' =>
      rw [hchanged.2, hchanged'.2, join_foldl_erase_congr hremoved hadded]

end

def Drained (old new : List String) (m : LoadMatrix) : Prop :=
  ∀ b row, m.row? b = some row → ∀ n ∈ old, n ∉ new → row.get? n = some 0

theorem Fits.exists_rebind_iff_drained (h : m.Fits bfes old)
    (hremoved : ∀ n, n ∈ removed ↔ n ∈ old ∧ n ∉ new) :
    (∃ m', m.rebind removed added = .ok m') ↔ Drained old new m := by
  rw [exists_rebind_iff]
  constructor
  · intro hzero b row hrow n hold hnew
    exact (h.getD_eq_zero hrow hold).1 (hzero b row hrow n ((hremoved n).2 ⟨hold, hnew⟩))
  · intro hdrained b row hrow n hn
    obtain ⟨hold, hnew⟩ := (hremoved n).1 hn
    exact (h.getD_eq_zero hrow hold).2 (hdrained b row hrow n hold hnew)

/-- A checked matrix is rebound exactly when it is drained. It then passes the check for what is bound
from there on, weights of sub-clusters that stay are as they were, and the names may be given in any
order. -/
theorem rebind_exact (hcheck : m.check bfes old = .ok ()) (hfree : blackhole ∉ new) :
    let removed := old.filter (· ∉ new)
    let added := new.filter (· ∉ old)
    ((∃ m', m.rebind removed added = .ok m') ↔ Drained old new m) ∧
      ∀ m', m.rebind removed added = .ok m' →
        m'.check bfes new = .ok () ∧ Rebound old new m m' ∧
          ∀ removed' added', removed'.Perm removed → added'.Perm added →
            m.rebind removed' added' = .ok m' := by
  intro removed added
  have hremoved : ∀ n, n ∈ removed ↔ n ∈ old ∧ n ∉ new := by simp [removed]
  have hadded : ∀ n, n ∈ added ↔ n ∈ new ∧ n ∉ old := by simp [added]
  have hfits := check_eq_ok.1 hcheck
  refine ⟨hfits.exists_rebind_iff_drained hremoved, fun m' h => ?_⟩
  obtain ⟨hfits', hrebound⟩ := hfits.rebind hremoved hadded hfree h
  refine ⟨check_eq_ok.2 hfits', hrebound, fun removed' added' hr ha => ?_⟩
  exact rebind_congr (fun _ => hr.mem_iff.symm) (fun _ => ha.mem_iff.symm) h

/-- Two of three sub-clusters have no traffic, in rows of which one has no sink. -/
def threeBound : LoadMatrix :=
  ⟨.ofList [("bfe-1", .ofList [("east", 0), ("west", 90), ("south", 0), (blackhole, 10)]),
    ("bfe-2", .ofList [("east", 0), ("west", 100), ("south", 0)])]⟩

theorem threeBound_rebind :
    let old := ["south", "west", "east"]
    let new := ["north", "west", "centre"]
    threeBound.check ["bfe-2", "bfe-1"] old = .ok () ∧ blackhole ∉ new ∧ Drained old new threeBound ∧
      ∃ m', threeBound.rebind ["south", "east"] ["north", "centre"] = .ok m' ∧
        threeBound.rebind ["east", "south"] ["centre", "north"] = .ok m' ∧
        m'.check ["bfe-2", "bfe-1"] new = .ok () ∧ Rebound old new threeBound m' := by
  intro old new
  have hcheck : threeBound.check ["bfe-2", "bfe-1"] old = .ok () := by decide +kernel
  have hfree : blackhole ∉ new := by decide
  obtain ⟨m', hm'⟩ : ∃ m', threeBound.rebind ["south", "east"] ["north", "centre"] = .ok m' :=
    ⟨⟨.ofList [("bfe-1", .ofList [("west", 90), ("north", 0), ("centre", 0), (blackhole, 10)]),
      ("bfe-2", .ofList [("west", 100), ("north", 0), ("centre", 0)])]⟩, by decide +kernel⟩
  obtain ⟨hiff, hexact⟩ := rebind_exact hcheck hfree
  obtain ⟨hcheck', hrebound, horder⟩ := hexact m' hm'
  exact ⟨hcheck, hfree, hiff.1 ⟨m', hm'⟩, m', hm',
    horder _ _ (List.Perm.swap _ _ _) (List.Perm.swap _ _ _), hcheck', hrebound⟩

end LoadMatrix
end FleetControl
