import FleetControl.LoadMatrix
import FleetControl.Proofs.SortedMap
import Mathlib.Algebra.Group.Nat.Defs

/-!
What the check of a load matrix demands, said without the order in which it looks: the rows are
those of the fleet, and every row splits exactly 100 percent among the bound sub-clusters and the
blackhole. Default rows meet the demand as long as a 32-bit word can count the sub-clusters.
-/

namespace FleetControl.LoadMatrix

theorem mem_nameSet {n : String} {names : List String} : n ∈ nameSet names ↔ n ∈ names := by
  rw [nameSet, SortedMap.mem_keys_iff_contains, SortedMap.contains_ofList, List.map_map]
  simp [Function.comp_def]

/-- The row splits all traffic among the bound sub-clusters and the blackhole. -/
structure RowFits (bound : List String) (row : LoadRow) : Prop where
  columns : ∀ {n w}, row.get? n = some w → n = blackhole ∨ n ∈ bound
  weights : ∀ {n w}, row.get? n = some w → 0 ≤ w ∧ w ≤ totalWeight
  total : sum row = 100
  complete : ∀ {n}, n ∈ bound → row.contains n = true

structure Fits (m : LoadMatrix) (bfes bound : List String) : Prop where
  unreserved : blackhole ∉ bound
  rows : ∀ {b}, m.rows.contains b = true ↔ b ∈ bfes
  fitting : ∀ {b row}, m.rows.get? b = some row → RowFits bound row

theorem RowFits.congr {a b : List String} {row : LoadRow} (hab : ∀ n, n ∈ a ↔ n ∈ b)
    (h : RowFits a row) : RowFits b row where
  columns hw := (h.columns hw).imp_right (hab _).1
  weights := h.weights
  total := h.total
  complete hn := h.complete ((hab _).2 hn)

theorem Fits.congr {m : LoadMatrix} {bfes bfes' bound bound' : List String}
    (hbfes : ∀ b, b ∈ bfes ↔ b ∈ bfes') (hbound : ∀ n, n ∈ bound ↔ n ∈ bound')
    (h : m.Fits bfes bound) : m.Fits bfes' bound' where
  unreserved hmem := h.unreserved ((hbound _).2 hmem)
  rows := h.rows.trans (hbfes _)
  fitting hrow := (h.fitting hrow).congr hbound

theorem entryDefect?_eq_none {bound : List String} {bfe : String} {l : List (String × Int32)} :
    entryDefect? bound bfe l = none ↔
      ∀ e ∈ l, (e.1 = blackhole ∨ e.1 ∈ bound) ∧ 0 ≤ e.2 ∧ e.2 ≤ totalWeight := by
  induction l with
  | nil => simp [entryDefect?]
  | cons e l ih =>
    obtain ⟨n, w⟩ := e
    rw [entryDefect?]
    by_cases hcol : n = blackhole ∨ n ∈ bound
    · have : ¬ ((decide (n ≠ blackhole) && !bound.contains n) = true) := by
        simpa [Classical.or_iff_not_imp_left] using hcol
      rw [if_neg this]
      by_cases hw : 0 ≤ w ∧ w ≤ totalWeight
      · have : ¬ ((decide (w < 0) || decide (totalWeight < w)) = true) := by
          simpa [Int32.not_lt] using hw
        rw [if_neg this, ih]
        simp [hcol, hw]
      · have : (decide (w < 0) || decide (totalWeight < w)) = true := by
          simpa [Int32.not_le, Classical.or_iff_not_imp_left] using hw
        rw [if_pos this]
        simp [hw]
    · have : (decide (n ≠ blackhole) && !bound.contains n) = true := by
        simpa [not_or] using hcol
      rw [if_pos this]
      simp [hcol]

theorem rowDefect?_eq_none {bound : List String} {bfe : String} {row : LoadRow} :
    rowDefect? bound bfe row = none ↔ RowFits bound row := by
  have entries : entryDefect? bound bfe row.entries = none ↔ ∀ n w, row.get? n = some w →
      (n = blackhole ∨ n ∈ bound) ∧ 0 ≤ w ∧ w ≤ totalWeight := by
    rw [entryDefect?_eq_none]
    exact ⟨fun h n w hw => h (n, w) (SortedMap.mem_entries.2 hw),
      fun h e he => h e.1 e.2 (SortedMap.mem_entries.1 he)⟩
  rw [rowDefect?]
  constructor
  · intro h
    split at h
    · cases h
    · rename_i hentries
      split at h
      · cases h
      · rename_i hsum
        simp only [Option.map_eq_none_iff, List.find?_eq_none] at h
        have allowed := entries.1 hentries
        refine ⟨fun hw => (allowed _ _ hw).1, fun hw => (allowed _ _ hw).2, ?_, fun hn => ?_⟩
        · exact Classical.not_not.1 hsum
        · simpa using h _ hn
  · intro h
    have hentries := entries.2 fun _ _ hw => ⟨h.columns hw, h.weights hw⟩
    have hsum : sum row = totalWeight.toInt := h.total
    rw [hentries]
    simp only [hsum, ne_eq, not_true_eq_false, if_false, Option.map_eq_none_iff,
      List.find?_eq_none]
    intro n hn
    simpa using h.complete hn

theorem defect?_eq_none {m : LoadMatrix} {bfes bound : List String} :
    m.defect? bfes bound = none ↔ m.Fits bfes bound := by
  have hbound {row : LoadRow} : RowFits (nameSet bound) row ↔ RowFits bound row :=
    ⟨RowFits.congr fun _ => mem_nameSet, RowFits.congr fun _ => mem_nameSet.symm⟩
  simp only [defect?]
  constructor
  · intro h
    split at h
    · cases h
    · rename_i hreserved
      split at h
      · cases h
      · rename_i hknown
        split at h
        · cases h
        · rename_i hmissing
          simp only [List.find?_eq_none, SortedMap.mem_keys_iff_contains] at hknown
          simp only [List.find?_eq_none, mem_nameSet] at hmissing
          rw [List.findSome?_eq_none_iff] at h
          refine ⟨by simpa [mem_nameSet] using hreserved, ⟨fun hb => ?_, fun hb => ?_⟩, ?_⟩
          · simpa [mem_nameSet] using hknown _ hb
          · simpa using hmissing _ hb
          · intro b row hrow
            exact hbound.1 (rowDefect?_eq_none.1 (h (b, row) (SortedMap.mem_entries.2 hrow)))
  · intro h
    have hreserved : ¬ ((nameSet bound).contains blackhole = true) := by
      simpa [mem_nameSet] using h.unreserved
    have hknown : m.rows.keys.find? (fun b => !(nameSet bfes).contains b) = none := by
      simp only [List.find?_eq_none, SortedMap.mem_keys_iff_contains]
      intro b hb
      simpa [mem_nameSet] using h.rows.1 hb
    have hmissing : (nameSet bfes).find? (fun b => !m.rows.contains b) = none := by
      simp only [List.find?_eq_none, mem_nameSet]
      intro b hb
      simpa using h.rows.2 hb
    rw [if_neg hreserved, hknown, hmissing]
    refine List.findSome?_eq_none_iff.2 fun e he => ?_
    exact rowDefect?_eq_none.2 (hbound.2 (h.fitting (SortedMap.mem_entries.1 he)))

theorem check_eq_ok {m : LoadMatrix} {bfes bound : List String} :
    m.check bfes bound = .ok () ↔ m.Fits bfes bound := by
  rw [← defect?_eq_none, check]
  split <;> simp_all

/-! Default rows. -/

theorem sum_insert {row : LoadRow} {n : String} (w : Int32) (h : row.get? n = none) :
    sum (row.insert n w) = w.toInt + sum row := by
  have entries (l : List (String × Int32)) (hl : SortedMap.lookup n l = none) :
      (((SortedMap.insertEntry n w l).map Prod.snd).map Int32.toInt).foldr (· + ·) 0 =
        w.toInt + ((l.map Prod.snd).map Int32.toInt).foldr (· + ·) 0 := by
    induction l with
    | nil => simp [SortedMap.insertEntry]
    | cons e l ih =>
      obtain ⟨n', w'⟩ := e
      rw [SortedMap.lookup_cons] at hl
      split at hl
      · cases hl
      · rename_i hne
        rw [SortedMap.insertEntry]
        split
        · simp
        · rename_i heq
          exact absurd (SortedMap.compare_eq_iff.1 heq) hne
        · have := ih hl
          simp only [List.map_cons, List.foldr_cons, this]
          omega
  exact entries row.entries h

theorem get?_shares (names : List String) (share : Int32) (row : LoadRow) (x : String) :
    (names.foldl (fun row n => row.insert n share) row).get? x =
      if x ∈ names then some share else row.get? x := by
  induction names generalizing row with
  | nil => simp
  | cons n names ih =>
    rw [List.foldl_cons, ih, SortedMap.get?_insert]
    by_cases hx : x = n <;> simp [hx]

theorem sum_shares {names : List String} (share : Int32) {row : LoadRow} (hnodup : names.Nodup)
    (hnew : ∀ n ∈ names, row.get? n = none) :
    sum (names.foldl (fun row n => row.insert n share) row) =
      names.length * share.toInt + sum row := by
  induction names generalizing row with
  | nil => simp
  | cons n names ih =>
    rw [List.nodup_cons] at hnodup
    have hrest : ∀ x ∈ names, (row.insert n share).get? x = none := fun x hx => by
      have hne : x ≠ n := fun e => hnodup.1 (e ▸ hx)
      rw [SortedMap.get?_insert_ne _ _ hne]
      exact hnew x (List.mem_cons_of_mem n hx)
    rw [List.foldl_cons, ih hnodup.2 hrest, sum_insert share (hnew n List.mem_cons_self),
      List.length_cons, Int.natCast_succ, Int.add_mul, Int.one_mul, Int.add_assoc]

section

variable {count : Nat} (hword : count < 2 ^ 31)

include hword

theorem share_toInt : (totalWeight / Int32.ofNat count).toInt = (100 / count : Nat) := by
  have hcount : (Int32.ofNat count).toInt = count := Int32.toInt_ofNat_of_lt hword
  have htotal : totalWeight.toInt = 100 := rfl
  have hle : 100 / count ≤ 100 := Nat.div_le_self 100 count
  have hcast : (100 : Int) / (count : Int) = (100 / count : Nat) := (Int.natCast_ediv 100 count).symm
  rw [Int32.toInt_div, hcount, htotal, Int.tdiv_eq_ediv_of_nonneg (by decide), hcast]
  generalize 100 / count = share at hle
  rw [Int.bmod_eq_of_le] <;> omega

theorem taken_toInt :
    (totalWeight / Int32.ofNat count * Int32.ofNat count).toInt = (count * (100 / count) : Nat) := by
  have hcount : (Int32.ofNat count).toInt = count := Int32.toInt_ofNat_of_lt hword
  have hsplit : count * (100 / count) + 100 % count = 100 := Nat.div_add_mod 100 count
  have hprod : ((100 / count : Nat) : Int) * (count : Int) = (count * (100 / count) : Nat) := by
    rw [Nat.mul_comm]; rfl
  rw [Int32.toInt_mul, share_toInt hword, hcount, hprod]
  rw [Int.bmod_eq_of_le] <;> omega

theorem rest_toInt :
    (totalWeight - totalWeight / Int32.ofNat count * Int32.ofNat count).toInt =
      (100 % count : Nat) := by
  have hsplit : count * (100 / count) + 100 % count = 100 := Nat.div_add_mod 100 count
  have htotal : totalWeight.toInt = 100 := rfl
  rw [Int32.toInt_sub, taken_toInt hword, htotal]
  rw [Int.bmod_eq_of_le] <;> omega

end

theorem defaultRow_eq (names : List String) :
    let count := Int32.ofNat names.length
    let share := totalWeight / count
    defaultRow names = (names.foldl (fun row n => row.insert n share) (∅ : LoadRow)).insert blackhole
      (totalWeight - share * count) := by
  rw [defaultRow]
  split
  · rename_i hempty
    obtain rfl := List.isEmpty_iff.1 hempty
    rfl
  · rfl

theorem get?_defaultRow (names : List String) (n : String) :
    let count := Int32.ofNat names.length
    let share := totalWeight / count
    (defaultRow names).get? n =
      if n = blackhole then some (totalWeight - share * count)
      else if n ∈ names then some share else none := by
  rw [defaultRow_eq, SortedMap.get?_insert, get?_shares, SortedMap.get?_empty]

theorem sum_defaultRow {names : List String} (hnodup : names.Nodup) (hfree : blackhole ∉ names)
    (hword : names.length < 2 ^ 31) : sum (defaultRow names) = 100 := by
  have hfresh : (names.foldl (fun row n => row.insert n
      (totalWeight / Int32.ofNat names.length)) (∅ : LoadRow)).get? blackhole = none := by
    rw [get?_shares, if_neg hfree, SortedMap.get?_empty]
  have hsplit : names.length * (100 / names.length) + 100 % names.length = 100 :=
    Nat.div_add_mod 100 names.length
  have hzero : sum (∅ : LoadRow) = 0 := rfl
  rw [defaultRow_eq, sum_insert _ hfresh, sum_shares _ hnodup fun _ _ => SortedMap.get?_empty _,
    share_toInt hword, rest_toInt hword, hzero, ← Int.natCast_mul]
  omega

theorem defaultRow_fits {names : List String} (hnodup : names.Nodup) (hfree : blackhole ∉ names)
    (hword : names.length < 2 ^ 31) : RowFits names (defaultRow names) where
  columns {n w} hw := by
    rw [get?_defaultRow] at hw
    split at hw
    · exact Or.inl ‹_›
    · split at hw
      · exact Or.inr ‹_›
      · cases hw
  -- Weights are compared as integers, where the share and the rest are known.
  weights {n w} hw := by
    have hshare := share_toInt hword
    have hrest := rest_toInt hword
    have hle : 100 / names.length ≤ 100 := Nat.div_le_self 100 names.length
    have hmod : 100 % names.length ≤ 100 := Nat.mod_le 100 names.length
    generalize 100 / names.length = share at hshare hle
    generalize 100 % names.length = rest at hrest hmod
    rw [get?_defaultRow] at hw
    rw [Int32.le_iff_toInt_le, Int32.le_iff_toInt_le]
    show 0 ≤ w.toInt ∧ w.toInt ≤ 100
    split at hw
    · obtain rfl := Option.some.inj hw
      omega
    · split at hw
      · obtain rfl := Option.some.inj hw
        omega
      · cases hw
  total := sum_defaultRow hnodup hfree hword
  complete {n} hn := by
    simp only [SortedMap.contains, get?_defaultRow, hn, if_true]
    split <;> rfl

theorem defaultFor_fits {bfes names : List String} (hnodup : names.Nodup)
    (hfree : blackhole ∉ names) (hword : names.length < 2 ^ 31) :
    (defaultFor bfes names).Fits bfes names where
  unreserved := hfree
  rows {b} := by
    rw [defaultFor, SortedMap.contains_ofList, List.map_map]
    simp [Function.comp_def]
  fitting {b row} hrow := by
    obtain ⟨bfe, _, heq⟩ := List.mem_map.1 (SortedMap.mem_of_get?_ofList hrow)
    cases heq
    exact defaultRow_fits hnodup hfree hword

theorem defaultRow_perm {names names' : List String} (h : names.Perm names') :
    defaultRow names = defaultRow names' := by
  refine SortedMap.ext fun n => ?_
  rw [get?_defaultRow, get?_defaultRow, h.length_eq]
  simp only [h.mem_iff]

theorem get?_defaultFor (bfes names : List String) (b : String) :
    (defaultFor bfes names).rows.get? b = if b ∈ bfes then some (defaultRow names) else none := by
  have hkeys : (defaultFor bfes names).rows.contains b = true ↔ b ∈ bfes := by
    rw [defaultFor, SortedMap.contains_ofList, List.map_map]
    simp [Function.comp_def]
  cases hrow : (defaultFor bfes names).rows.get? b with
  | none =>
    rw [SortedMap.contains, hrow] at hkeys
    rw [if_neg fun hb => by cases hkeys.2 hb]
  | some row =>
    rw [SortedMap.contains, hrow] at hkeys
    obtain ⟨bfe, -, heq⟩ := List.mem_map.1 (SortedMap.mem_of_get?_ofList hrow)
    rw [if_pos (hkeys.1 rfl), (Prod.mk.inj heq).2]

theorem Fits.insertRow {m : LoadMatrix} {bfes bound : List String} {bfe : String} {row : LoadRow}
    (h : m.Fits bfes bound) (hrow : RowFits bound row) :
    (m.insertRow bfe row).Fits (bfe :: bfes) bound where
  unreserved := h.unreserved
  rows {b} := by
    rw [List.mem_cons, ← h.rows, SortedMap.contains, SortedMap.contains, LoadMatrix.insertRow,
      SortedMap.get?_insert]
    split <;> simp_all
  fitting {b r} hr := by
    rw [LoadMatrix.insertRow] at hr
    rcases SortedMap.get?_insert_eq_some.1 hr with ⟨-, rfl⟩ | ⟨-, hr⟩
    · exact hrow
    · exact h.fitting hr

theorem Fits.eraseRow {m : LoadMatrix} {bfes bfes' bound : List String} {bfe : String}
    (h : m.Fits bfes bound) (hbfes : ∀ b, b ∈ bfes' ↔ b ∈ bfes ∧ b ≠ bfe) :
    (m.eraseRow bfe).Fits bfes' bound where
  unreserved := h.unreserved
  rows {b} := by
    rw [hbfes, ← h.rows, SortedMap.contains, SortedMap.contains, LoadMatrix.eraseRow,
      SortedMap.get?_erase]
    split <;> simp_all
  fitting {b r} hr := by
    rw [LoadMatrix.eraseRow] at hr
    exact h.fitting (SortedMap.get?_erase_eq_some.1 hr).2

/-! Rows that come and go. -/

theorem row?_insertRow_ne (m : LoadMatrix) {x y : String} (row : LoadRow) (h : y ≠ x) :
    (m.insertRow x row).row? y = m.row? y := SortedMap.get?_insert_ne _ _ h

theorem row?_eraseRow_ne (m : LoadMatrix) {x y : String} (h : y ≠ x) :
    (m.eraseRow x).row? y = m.row? y := by
  rw [eraseRow, row?, SortedMap.get?_erase, if_neg h, row?]

theorem eraseRow_insertRow {m : LoadMatrix} {x : String} (h : m.row? x = none) (row : LoadRow) :
    (m.insertRow x row).eraseRow x = m := by
  rw [insertRow, eraseRow, SortedMap.erase_insert h]

end FleetControl.LoadMatrix
