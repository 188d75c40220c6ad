import FleetControl.SortedMap
import Mathlib.Data.List.Nodup

/-!
Reading a sorted map after each way of building it. A key is looked up by comparison; with a lawful
order that is equality, so every map is determined by what its keys look up.
-/

namespace FleetControl.SortedMap

variable {α β γ ε : Type} [Ord α]

theorem contains_iff {m : SortedMap α β} {k : α} : m.contains k = true ↔ ∃ v, m.get? k = some v :=
  Option.isSome_iff_exists

@[simp] theorem get?_empty (k : α) : (∅ : SortedMap α β).get? k = none := rfl

theorem map_id (m : SortedMap α β) : (m.map fun _ v => v) = m := ext_entries (List.map_id _)

variable [Std.LawfulEqOrd α]

theorem compare_eq_iff {a b : α} : compare a b = .eq ↔ a = b := Std.LawfulEqCmp.compare_eq_iff_eq

theorem nodup_keys (m : SortedMap α β) : m.keys.Nodup :=
  m.increasing.imp fun h e => by simp [compare_eq_iff.2 e] at h

variable [DecidableEq α]

theorem lookup_cons (x k : α) (v : β) (l : List (α × β)) :
    lookup x ((k, v) :: l) = if x = k then some v else lookup x l := by
  simp only [lookup, compare_eq_iff]

theorem lookup_insertEntry (k x : α) (v : β) (l : List (α × β)) :
    lookup x (insertEntry k v l) = if x = k then some v else lookup x l := by
  induction l with
  | nil => simp [insertEntry, lookup_cons]
  | cons hd tl ih =>
    obtain ⟨k', v'⟩ := hd
    rw [insertEntry]
    split
    · simp only [lookup_cons]
    · rename_i heq
      have hk : k = k' := compare_eq_iff.1 heq
      subst hk
      simp only [lookup_cons]
      split <;> rfl
    · rename_i hgt
      have hne : k ≠ k' := fun h => by simp [compare_eq_iff.2 h] at hgt
      simp only [lookup_cons, ih]
      by_cases hx : x = k'
      · simp [hx, Ne.symm hne]
      · simp [hx]

theorem lookup_eq_some_iff {x : α} {v : β} {l : List (α × β)}
    (h : (l.map Prod.fst).Pairwise (fun a b => compare a b = .lt)) :
    lookup x l = some v ↔ (x, v) ∈ l := by
  induction l with
  | nil => simp [lookup]
  | cons hd tl ih =>
    obtain ⟨k, w⟩ := hd
    simp only [List.map_cons, List.pairwise_cons] at h
    rw [lookup_cons, List.mem_cons]
    by_cases hx : x = k
    · subst hx
      have hnot : (x, v) ∉ tl := fun hmem => by
        have := h.1 x (List.mem_map_of_mem hmem)
        simp at this
      simp only [if_true, Option.some.injEq, Prod.mk.injEq, true_and, hnot, or_false]
      exact eq_comm
    · simp [hx, ih h.2]

theorem mem_entries {m : SortedMap α β} {k : α} {v : β} :
    (k, v) ∈ m.entries ↔ m.get? k = some v := (lookup_eq_some_iff m.increasing).symm

theorem mem_values {m : SortedMap α β} {v : β} : v ∈ m.values ↔ ∃ k, m.get? k = some v := by
  simp only [values, List.mem_map, Prod.exists, mem_entries]
  exact ⟨fun ⟨k, _, h, e⟩ => ⟨k, e ▸ h⟩, fun ⟨k, h⟩ => ⟨k, v, h, rfl⟩⟩

theorem mem_keys {m : SortedMap α β} {k : α} : k ∈ m.keys ↔ ∃ v, m.get? k = some v := by
  simp only [keys, List.mem_map, Prod.exists, mem_entries]
  exact ⟨fun ⟨_, v, h, e⟩ => ⟨v, e ▸ h⟩, fun ⟨v, h⟩ => ⟨k, v, h, rfl⟩⟩

theorem eq_of_size_le_one {m : SortedMap α β} (h : m.size ≤ 1) {k l : α} {v w : β}
    (hk : m.get? k = some v) (hl : m.get? l = some w) : k = l := by
  obtain ⟨entry, hentry⟩ | hnil := (Nat.le_one_iff_eq_zero_or_eq_one.1 h).symm.imp
    List.length_eq_one_iff.1 List.eq_nil_iff_length_eq_zero.2
  · rw [← mem_entries, hentry, List.mem_singleton] at hk hl
    rw [← hl] at hk
    exact congrArg Prod.fst hk
  · rw [← mem_entries, hnil] at hk
    cases hk

theorem mem_keys_iff_contains {m : SortedMap α β} {k : α} : k ∈ m.keys ↔ m.contains k = true := by
  rw [mem_keys, contains_iff]

theorem get?_filter (p : α → β → Bool) (m : SortedMap α β) (k : α) :
    (m.filter p).get? k = (m.get? k).filter (p k) := by
  apply Option.ext
  intro v
  rw [← mem_entries, Option.filter_eq_some_iff, ← mem_entries]
  simp [filter]

@[simp] theorem get?_erase (m : SortedMap α β) (k x : α) :
    (m.erase k).get? x = if x = k then none else m.get? x := by
  rw [erase, get?_filter]
  by_cases h : x = k
  · subst h
    cases m.get? x <;> simp
  · have hne : compare k x ≠ .eq := fun e => h (compare_eq_iff.1 e).symm
    cases m.get? x <;> simp [h, hne]

theorem get?_erase_eq_some {m : SortedMap α β} {k x : α} {v : β} :
    (m.erase k).get? x = some v ↔ x ≠ k ∧ m.get? x = some v := by
  rw [get?_erase]
  split
  · simp_all
  · simp_all

theorem contains_erase {m : SortedMap α β} {k x : α} :
    (m.erase k).contains x = true ↔ x ≠ k ∧ m.contains x = true := by
  rw [contains, get?_erase]
  by_cases h : x = k <;> simp [h, contains]

theorem lookup_map (f : α → β → γ) (x : α) (l : List (α × β)) :
    lookup x (l.map fun e => (e.1, f e.1 e.2)) = (lookup x l).map (f x) := by
  induction l with
  | nil => rfl
  | cons hd tl ih =>
    rw [List.map_cons, lookup_cons, lookup_cons, ih]
    split
    · rename_i h
      rw [h]; rfl
    · rfl

@[simp] theorem get?_map (f : α → β → γ) (m : SortedMap α β) (k : α) :
    (m.map f).get? k = (m.get? k).map (f k) := lookup_map f k m.entries

/-! Insertion, and lists of entries. -/

variable [Std.TransOrd α]

theorem ext {m n : SortedMap α β} (h : ∀ k, m.get? k = n.get? k) : m = n := by
  have sorted (l : SortedMap α β) : l.entries.Pairwise (fun a b => compare a.1 b.1 = .lt) :=
    List.pairwise_map.1 l.increasing
  have nodup (l : SortedMap α β) : l.entries.Nodup :=
    (sorted l).imp fun hlt e => by simp [compare_eq_iff.2 (congrArg Prod.fst e)] at hlt
  have perm : m.entries.Perm n.entries := by
    refine (List.perm_ext_iff_of_nodup (nodup m) (nodup n)).2 fun e => ?_
    rw [mem_entries, mem_entries, h]
  refine ext_entries (perm.eq_of_pairwise ?_ (sorted m) (sorted n))
  intro a b _ _ hab hba
  have := Std.OrientedCmp.gt_of_lt hab
  simp [this] at hba

@[simp] theorem get?_insert (m : SortedMap α β) (k x : α) (v : β) :
    (m.insert k v).get? x = if x = k then some v else m.get? x := lookup_insertEntry k x v m.entries

theorem get?_insert_self (m : SortedMap α β) (k : α) (v : β) : (m.insert k v).get? k = some v := by
  simp

theorem get?_insert_ne (m : SortedMap α β) {k x : α} (v : β) (h : x ≠ k) :
    (m.insert k v).get? x = m.get? x := by simp [h]

theorem get?_insert_eq_some {m : SortedMap α β} {k x : α} {v w : β} :
    (m.insert k v).get? x = some w ↔ x = k ∧ v = w ∨ x ≠ k ∧ m.get? x = some w := by
  rw [get?_insert]
  split
  · simp_all
  · simp_all

theorem contains_insert {m : SortedMap α β} {k x : α} {v : β} :
    (m.insert k v).contains x = true ↔ x = k ∨ m.contains x = true := by
  rw [contains, get?_insert]
  by_cases h : x = k <;> simp [h, contains]

theorem get?_foldl_insert {l : List (α × β)} {m : SortedMap α β} {k : α} {v : β}
    (h : (l.foldl (fun m e => m.insert e.1 e.2) m).get? k = some v) :
    (k, v) ∈ l ∨ m.get? k = some v := by
  induction l generalizing m with
  | nil => exact Or.inr h
  | cons e l ih =>
    rcases ih h with h | h
    · exact Or.inl (List.mem_cons_of_mem e h)
    · rw [get?_insert] at h
      split at h
      · rename_i hk
        obtain rfl := Option.some.inj h
        exact Or.inl (by simp [hk])
      · exact Or.inr h

theorem mem_of_get?_ofList {l : List (α × β)} {k : α} {v : β} (h : (ofList l).get? k = some v) :
    (k, v) ∈ l := by
  rcases get?_foldl_insert h with h | h
  · exact h
  · simp at h

theorem contains_foldl_insert {l : List (α × β)} {m : SortedMap α β} {k : α} :
    (l.foldl (fun m e => m.insert e.1 e.2) m).contains k = true ↔
      k ∈ l.map Prod.fst ∨ m.contains k = true := by
  induction l generalizing m with
  | nil => simp
  | cons e l ih =>
    rw [List.foldl_cons, ih, List.map_cons, List.mem_cons, contains, get?_insert]
    by_cases hk : k = e.1 <;> simp [hk, contains]

theorem contains_ofList {l : List (α × β)} {k : α} :
    (ofList l).contains k = true ↔ k ∈ l.map Prod.fst := by
  rw [ofList, contains_foldl_insert]
  simp [contains]

theorem get?_ofList {l : List (α × β)} (h : (l.map Prod.fst).Nodup) {k : α} {v : β} :
    (ofList l).get? k = some v ↔ (k, v) ∈ l := by
  constructor
  · exact mem_of_get?_ofList
  · intro hmem
    have hkey : (ofList l).contains k = true := contains_ofList.2 (List.mem_map_of_mem hmem)
    obtain ⟨w, hw⟩ := contains_iff.1 hkey
    have hsame := List.inj_on_of_nodup_map h (mem_of_get?_ofList hw) hmem rfl
    cases hsame
    exact hw

/-! Insertion of a value, if there is one. -/

def insert? (m : SortedMap α β) (k : α) : Option β → SortedMap α β
  | none => m
  | some v => m.insert k v

theorem get?_insert? (m : SortedMap α β) (k x : α) (o : Option β) :
    (m.insert? k o).get? x = if x = k then o.or (m.get? x) else m.get? x := by
  cases o with
  | none => simp [insert?]
  | some v => simp [insert?]

theorem map_insert? (m : SortedMap α β) (k : α) (o : Option β) (f : α → β → β) :
    (m.insert? k o).map f = (m.map f).insert? k (o.map (f k)) := by
  refine ext fun x => ?_
  rw [get?_map, get?_insert?, get?_insert?, get?_map]
  by_cases hx : x = k
  · subst hx
    cases o <;> simp
  · simp [hx]

theorem insert_comm (m : SortedMap α β) {k l : α} (hne : k ≠ l) (v w : β) :
    (m.insert k v).insert l w = (m.insert l w).insert k v := by
  refine ext fun x => ?_
  simp only [get?_insert]
  by_cases hl : x = l
  · subst hl
    simp [Ne.symm hne]
  · simp [hl]

theorem erase_insert {m : SortedMap α β} {k : α} (h : m.get? k = none) (v : β) :
    (m.insert k v).erase k = m := by
  refine ext fun x => ?_
  rw [get?_erase, get?_insert]
  split
  · rename_i hx
    rw [hx, h]
  · rfl

/-! Parts of maps. What changes in a map makes no difference to a part that it is not in. -/

section

variable {p : α → β → Bool} {m : SortedMap α β} {k : α}

theorem filter_congr {n : SortedMap α β}
    (h : ∀ x, (m.get? x).filter (p x) = (n.get? x).filter (p x)) : m.filter p = n.filter p := by
  refine ext fun x => ?_
  rw [get?_filter, get?_filter, h]

theorem filter_insert {v : β} (hnew : p k v = false)
    (hold : ∀ w, m.get? k = some w → p k w = false) : (m.insert k v).filter p = m.filter p := by
  refine filter_congr fun x => ?_
  rw [get?_insert]
  split
  · rename_i hx
    rw [hx]
    cases hw : m.get? k with
    | none => simp [Option.filter_some, hnew]
    | some w => simp [Option.filter_some, hnew, hold w hw]
  · rfl

theorem filter_erase (hold : ∀ w, m.get? k = some w → p k w = false) :
    (m.erase k).filter p = m.filter p := by
  refine filter_congr fun x => ?_
  rw [get?_erase]
  split
  · rename_i hx
    rw [hx]
    cases hw : m.get? k with
    | none => rfl
    | some w => simp [Option.filter_some, hold w hw]
  · rfl

theorem filter_map_of_same {f : α → β → β}
    (h : ∀ x v, m.get? x = some v → f x v = v ∨ p x (f x v) = false ∧ p x v = false) :
    (m.map f).filter p = m.filter p := by
  refine filter_congr fun x => ?_
  rw [get?_map]
  cases hv : m.get? x with
  | none => rfl
  | some v =>
    rcases h x v hv with hsame | ⟨hnew, hold⟩
    · rw [Option.map_some, hsame]
    · simp [Option.filter_some, hnew, hold]

end

end FleetControl.SortedMap
