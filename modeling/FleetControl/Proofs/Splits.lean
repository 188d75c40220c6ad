import FleetControl.Proofs.LoadMatrix

/-!
Which load matrices are let in, told by their keys and entries alone; and that the default matrix is let
in whatever the fleet and however many sub-clusters there are. The shares of a default row are words of
32 bits, and none of the steps that compute them runs over or divides by zero.
-/

namespace FleetControl.LoadMatrix

/-! Rows and matrices that are let in. -/

theorem rowFits_iff {bound : List String} {row : LoadRow} :
    RowFits bound row ↔
      (∀ n ∈ row.keys, n ∈ bound ∨ n = blackhole) ∧ (∀ n ∈ bound, n ∈ row.keys) ∧
        (∀ w ∈ row.values, 0 ≤ w.toInt ∧ w.toInt ≤ 100) ∧ sum row = 100 := by
  constructor
  · intro h
    refine ⟨fun n hn => ?_, fun n hn => ?_, fun w hw => ?_, h.total⟩
    · obtain ⟨w, hw⟩ := SortedMap.mem_keys.1 hn
      exact (h.columns hw).symm
    · exact SortedMap.mem_keys_iff_contains.2 (h.complete hn)
    · obtain ⟨n, hn⟩ := SortedMap.mem_values.1 hw
      have hbounds := h.weights hn
      rw [Int32.le_iff_toInt_le, Int32.le_iff_toInt_le] at hbounds
      exact hbounds
  · rintro ⟨hcolumns, hcomplete, hweights, htotal⟩
    refine ⟨fun hw => ?_, fun {n w} hw => ?_, htotal, fun hn => ?_⟩
    · exact (hcolumns _ (SortedMap.mem_keys.2 ⟨_, hw⟩)).symm
    · have hbounds := hweights w (SortedMap.mem_values.2 ⟨n, hw⟩)
      rw [Int32.le_iff_toInt_le, Int32.le_iff_toInt_le]
      exact hbounds
    · exact SortedMap.mem_keys_iff_contains.1 (hcomplete _ hn)

theorem fits_iff {m : LoadMatrix} {bfes bound : List String} :
    m.Fits bfes bound ↔
      blackhole ∉ bound ∧ (∀ b, b ∈ m.rows.keys ↔ b ∈ bfes) ∧
        ∀ row ∈ m.rows.values, RowFits bound row := by
  constructor
  · intro h
    refine ⟨h.unreserved, fun b => SortedMap.mem_keys_iff_contains.trans h.rows, fun row hrow => ?_⟩
    obtain ⟨b, hb⟩ := SortedMap.mem_values.1 hrow
    exact h.fitting hb
  · rintro ⟨hfree, hrows, hfitting⟩
    refine ⟨hfree, SortedMap.mem_keys_iff_contains.symm.trans (hrows _), fun hb => ?_⟩
    exact hfitting _ (SortedMap.mem_values.2 ⟨_, hb⟩)

/-- The check lets in the matrices that have a row for each BFE cluster and no other, in which a column
for each bound sub-cluster, and besides only the blackhole, splits exactly 100 percent. Of the names that
it is given only the sets count. -/
theorem check_accepts_iff (m : LoadMatrix) (bfes bound : List String) :
    (m.check bfes bound = .ok () ↔
      blackhole ∉ bound ∧ (∀ b, b ∈ m.rows.keys ↔ b ∈ bfes) ∧
        ∀ row ∈ m.rows.values,
          (∀ n ∈ row.keys, n ∈ bound ∨ n = blackhole) ∧ (∀ n ∈ bound, n ∈ row.keys) ∧
            (∀ w ∈ row.values, 0 ≤ w.toInt ∧ w.toInt ≤ 100) ∧ sum row = 100) ∧
    ∀ bfes' bound' : List String, (∀ b, b ∈ bfes' ↔ b ∈ bfes) → (∀ n, n ∈ bound' ↔ n ∈ bound) →
      (m.check bfes' bound' = .ok () ↔ m.check bfes bound = .ok ()) := by
  constructor
  · rw [check_eq_ok, fits_iff]
    simp only [rowFits_iff]
  · intro bfes' bound' hbfes hbound
    rw [check_eq_ok, check_eq_ok]
    constructor
    · exact Fits.congr hbfes hbound
    · exact Fits.congr (fun b => (hbfes b).symm) fun n => (hbound n).symm

theorem check_accepts_repeated :
    let m : LoadMatrix := ⟨.ofList [
      ("bfe-1", .ofList [("east", 60), ("west", 40)]),
      ("bfe-2", .ofList [("east", 0), ("west", 0), (blackhole, 100)])]⟩
    m.check ["bfe-2", "bfe-1"] ["west", "east"] = .ok () ∧
      m.check ["bfe-1", "bfe-2", "bfe-1"] ["east", "west", "west"] = .ok () := by
  intro m
  obtain ⟨haccepts, hsets⟩ := check_accepts_iff m ["bfe-2", "bfe-1"] ["west", "east"]
  have hkeys : m.rows.keys = ["bfe-1", "bfe-2"] := by decide +kernel
  have hcolumns : ∀ row ∈ m.rows.values,
      (∀ n ∈ row.keys, n ∈ ["west", "east"] ∨ n = blackhole) ∧ ∀ n ∈ ["west", "east"], n ∈ row.keys := by
    decide +kernel
  -- A check of a list, as a statement about words might be decided by trying all of them.
  have hweights : ∀ row ∈ m.rows.values,
      row.values.all (fun w => 0 ≤ w.toInt ∧ w.toInt ≤ 100) = true := by decide +kernel
  have htotals : ∀ row ∈ m.rows.values, sum row = 100 := by decide +kernel
  have hchecked : m.check ["bfe-2", "bfe-1"] ["west", "east"] = .ok () := by
    refine haccepts.2 ⟨by decide +kernel, fun b => ?_, fun row hrow => ?_⟩
    · rw [hkeys]
      simp [or_comm]
    · have hweight := List.all_eq_true.1 (hweights row hrow)
      exact ⟨(hcolumns row hrow).1, (hcolumns row hrow).2, fun w hw => of_decide_eq_true (hweight w hw),
        htotals row hrow⟩
  refine ⟨hchecked, (hsets _ _ (fun b => ?_) fun n => ?_).2 hchecked⟩
  · simp [or_comm]
  · simp [or_comm]

/-! Default rows, with each step of their arithmetic checked. -/

def word? (n : Int) : Option Int32 :=
  if Int32.minValue.toInt ≤ n ∧ n ≤ Int32.maxValue.toInt then some (Int32.ofInt n) else none

def quotient? (a b : Int32) : Option Int32 :=
  if b = 0 then none else word? (a.toInt.tdiv b.toInt)

/-- The default row as it is computed by arithmetic that fails wherever a result is no word, or where it
would have to divide by zero. -/
def checkedRow? (subClusters : List String) : Option LoadRow :=
  if subClusters.isEmpty then some ((∅ : LoadRow).insert blackhole totalWeight)
  else do
    let count ← word? subClusters.length
    let share ← quotient? totalWeight count
    let taken ← word? (share.toInt * count.toInt)
    let rest ← word? (totalWeight.toInt - taken.toInt)
    return (subClusters.foldl (fun row name => row.insert name share) (∅ : LoadRow)).insert blackhole
      rest

theorem word?_toInt (w : Int32) : word? w.toInt = some w := by
  rw [word?, if_pos ⟨w.minValue_le_toInt, w.toInt_le⟩, Int32.ofInt_toInt]

theorem word?_eq {n : Int} {w : Int32} (h : w.toInt = n) : word? n = some w := h ▸ word?_toInt w

theorem quotient?_eq {a b w : Int32} (hb : b ≠ 0) (h : w.toInt = a.toInt.tdiv b.toInt) :
    quotient? a b = some w := by
  rw [quotient?, if_neg hb, word?_eq h]

/-- The arithmetic of a default row goes through as long as a word can count the sub-clusters. -/
theorem checkedRow?_eq {names : List String} (hword : names.length < 2 ^ 31) :
    checkedRow? names = some (defaultRow names) := by
  unfold checkedRow? defaultRow
  split
  · rfl
  · rename_i hempty
    generalize hcount : Int32.ofNat names.length = count
    have hlength : count.toInt = names.length := by
      rw [← hcount, Int32.toInt_ofNat_of_lt hword]
    have hnonzero : count ≠ 0 := by
      intro hzero
      rw [hzero] at hlength
      exact hempty (List.isEmpty_iff_length_eq_zero.2 (Int.natCast_eq_zero.1 hlength.symm))
    have hshare : (totalWeight / count).toInt = totalWeight.toInt.tdiv count.toInt := by
      rw [hlength, ← hcount, share_toInt hword, Int.tdiv_eq_ediv_of_nonneg (by decide)]
      exact Int.natCast_ediv 100 names.length
    have htaken : (totalWeight / count * count).toInt = (totalWeight / count).toInt * count.toInt := by
      rw [hlength, ← hcount, taken_toInt hword, share_toInt hword, Nat.mul_comm, Int.natCast_mul]
    have hrest : (totalWeight - totalWeight / count * count).toInt =
        totalWeight.toInt - (totalWeight / count * count).toInt := by
      have hsplit := Nat.div_add_mod 100 names.length
      have htotal : totalWeight.toInt = 100 := rfl
      rw [← hcount, taken_toInt hword, rest_toInt hword, htotal]
      omega
    simp only [Option.bind_eq_bind, word?_eq hlength, quotient?_eq hnonzero hshare, word?_eq htaken,
      word?_eq hrest, Option.bind_some]
    rfl

theorem get?_defaultRow_of_mem {names : List String} (hfree : blackhole ∉ names)
    (hword : names.length < 2 ^ 31) {n : String} (hn : n ∈ names) :
    ((defaultRow names).get? n).map Int32.toInt = some (100 / names.length : Int) := by
  have hne : n ≠ blackhole := fun e => hfree (e ▸ hn)
  rw [get?_defaultRow, if_neg hne, if_pos hn, Option.map_some, share_toInt hword]
  rfl

theorem get?_defaultRow_blackhole {names : List String} (hword : names.length < 2 ^ 31) :
    ((defaultRow names).get? blackhole).map Int32.toInt =
      some (if names = [] then 100 else 100 - names.length * (100 / names.length : Int)) := by
  have hsplit := Nat.div_add_mod 100 names.length
  rw [get?_defaultRow, if_pos rfl, Option.map_some, rest_toInt hword]
  split
  · rename_i hnil
    rw [hnil]
    rfl
  · congr 1
    have hcast : (names.length : Int) * (100 / names.length : Int) =
        (names.length * (100 / names.length) : Nat) := by push_cast; rfl
    omega

/-- The default matrix is let in, for any fleet and any number of sub-clusters that a word can count. Its
rows give every sub-cluster the same share, rounded down, and the blackhole the rest; and all of their
arithmetic is exact. -/
theorem defaultFor_accepted (bfes names : List String) (hnodup : names.Nodup)
    (hfree : blackhole ∉ names) (hword : names.length < 2 ^ 31) :
    (defaultFor bfes names).check bfes names = .ok () ∧
      (∀ b row, (defaultFor bfes names).row? b = some row →
        (∀ n ∈ names, (row.get? n).map Int32.toInt = some (100 / names.length : Int)) ∧
          (row.get? blackhole).map Int32.toInt =
            some (if names = [] then 100 else 100 - names.length * (100 / names.length : Int))) ∧
      checkedRow? names = some (defaultRow names) := by
  refine ⟨check_eq_ok.2 (defaultFor_fits hnodup hfree hword), fun b row hrow => ?_,
    checkedRow?_eq hword⟩
  have hdefault : row = defaultRow names := by
    rw [row?, get?_defaultFor] at hrow
    split at hrow
    · exact (Option.some.inj hrow).symm
    · cases hrow
  subst hdefault
  constructor
  · intro n hn
    exact get?_defaultRow_of_mem hfree hword hn
  · exact get?_defaultRow_blackhole hword

theorem defaultFor_crowded :
    let names := (List.range 101).map fun n => String.ofList (List.replicate n 's')
    names.Nodup ∧ blackhole ∉ names ∧ names.length < 2 ^ 31 ∧
      (defaultFor ["bfe-2", "bfe-1", "bfe-2"] names).check ["bfe-2", "bfe-1", "bfe-2"] names = .ok () ∧
      ((defaultRow names).get? "ssss").map Int32.toInt = some 0 ∧
      ((defaultRow names).get? blackhole).map Int32.toInt = some 100 := by
  intro names
  have hlength : names.length = 101 := by rw [List.length_map, List.length_range]
  have hnodup : names.Nodup := by
    refine List.Nodup.map (fun k l hkl => ?_) List.nodup_range
    have hchars := congrArg List.length (String.ofList_injective hkl)
    rwa [List.length_replicate, List.length_replicate] at hchars
  have hfree : blackhole ∉ names := by
    intro hmem
    obtain ⟨n, -, hn⟩ := List.mem_map.1 hmem
    have hin : 'G' ∈ List.replicate n 's' := by
      rw [← String.toList_ofList (l := List.replicate n 's'), hn]
      decide
    cases List.eq_of_mem_replicate hin
  have hword : names.length < 2 ^ 31 := by rw [hlength]; decide
  obtain ⟨hcheck, hrows, -⟩ := defaultFor_accepted ["bfe-2", "bfe-1", "bfe-2"] names hnodup hfree hword
  have hrow : (defaultFor ["bfe-2", "bfe-1", "bfe-2"] names).row? "bfe-1" = some (defaultRow names) := by
    rw [row?, get?_defaultFor, if_pos (by simp)]
  obtain ⟨hshares, hrest⟩ := hrows _ _ hrow
  refine ⟨hnodup, hfree, hword, hcheck, ?_, ?_⟩
  · have hmem : "ssss" ∈ names := List.mem_map.2 ⟨4, by simp, rfl⟩
    rw [hshares _ hmem, hlength]
    rfl
  · have hsome : names ≠ [] := fun h => by rw [h] at hlength; cases hlength
    rw [hrest, if_neg hsome, hlength]
    rfl

end FleetControl.LoadMatrix
