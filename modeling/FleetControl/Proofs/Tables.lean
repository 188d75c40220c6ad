import FleetControl.Proofs.SortedMap
import FleetControl.Store.Tables

/-!
Tables whose records are kept under their own ids, and what reading such tables gives. The counter
is ahead of every id in use, so a new record never takes the place of an old one.
-/

namespace FleetControl.Store

/-! Sorting by name. -/

namespace Tables

variable {α β : Type} {R : α → α → Prop} {l : List α}

theorem rel_of_mem_zipIdx (h : l.Pairwise R) {x y : α × Nat} (hx : x ∈ l.zipIdx)
    (hy : y ∈ l.zipIdx) (hlt : x.2 < y.2) : R x.1 y.1 := by
  obtain ⟨a, i⟩ := x
  obtain ⟨b, j⟩ := y
  obtain ⟨hi, rfl⟩ := List.getElem?_eq_some_iff.1 (List.mk_mem_zipIdx_iff_getElem?.1 hx)
  obtain ⟨hj, rfl⟩ := List.getElem?_eq_some_iff.1 (List.mk_mem_zipIdx_iff_getElem?.1 hy)
  exact List.pairwise_iff_getElem.1 h i j hi hj hlt

theorem pairwise_mergeSort_stable {le : α → α → Bool}
    (trans : ∀ a b c, le a b = true → le b c = true → le a c = true)
    (total : ∀ a b, (le a b || le b a) = true) (h : l.Pairwise R) :
    (l.mergeSort le).Pairwise fun a b => le a b = true ∧ (le b a = true → R a b) := by
  -- Each element is paired with its place, which decides where the order does not.
  have hsorted := List.pairwise_mergeSort (List.zipIdxLE_trans trans) (List.zipIdxLE_total total)
    l.zipIdx
  have hplaces : ((l.zipIdx.mergeSort (List.zipIdxLE le)).map Prod.snd).Nodup := by
    rw [((List.mergeSort_perm _ _).map Prod.snd).nodup_iff, List.zipIdx_map_snd]
    exact List.nodup_range'
  rw [← List.mergeSort_zipIdx, List.pairwise_map]
  refine (hsorted.and (List.pairwise_map.1 hplaces)).imp_of_mem fun {x y} hx hy hxy => ?_
  rw [List.mem_mergeSort] at hx hy
  obtain ⟨hle, hne⟩ := hxy
  rw [List.zipIdxLE] at hle
  split at hle
  · refine ⟨‹_›, fun hback => ?_⟩
    rw [if_pos hback] at hle
    exact rel_of_mem_zipIdx h hx hy (Nat.lt_of_le_of_ne (of_decide_eq_true hle) hne)
  · cases hle

theorem pairwise_sortByName (name : α → String) (h : l.Pairwise R) :
    (sortByName name l).Pairwise fun a b => name a ≤ name b ∧ (name b ≤ name a → R a b) := by
  have htrans (a b c : α) (hab : decide (name a ≤ name b) = true)
      (hbc : decide (name b ≤ name c) = true) : decide (name a ≤ name c) = true := by
    simp only [decide_eq_true_eq] at hab hbc ⊢
    exact String.le_trans hab hbc
  have htotal (a b : α) : (decide (name a ≤ name b) || decide (name b ≤ name a)) = true := by
    simpa only [Bool.or_eq_true, decide_eq_true_eq] using String.le_total (name a) (name b)
  rw [sortByName]
  simpa only [decide_eq_true_eq] using pairwise_mergeSort_stable htrans htotal h

theorem mem_select_iff {kind : Kind} {table : SortedMap (Id kind) α} {admits : α → Bool}
    {name : α → String} {a : α} :
    a ∈ select table admits name ↔ a ∈ table.values ∧ admits a = true := by
  rw [select, sortByName, List.mem_mergeSort, List.mem_filter]

theorem map_sortByName (name : β → String) (f : α → β) (l : List α) :
    (sortByName (fun a => name (f a)) l).map f = sortByName name (l.map f) :=
  List.map_mergeSort fun _ _ _ _ => rfl

end Tables

/-- Every record is kept under its own id, which is below `bound`. -/
structure Indexed {kind : Kind} {α : Type} (bound : Int) (id : α → Id kind)
    (table : SortedMap (Id kind) α) : Prop where
  own : ∀ {i a}, table.get? i = some a → id a = i
  below : ∀ {i a}, table.get? i = some a → i.val < bound

namespace Indexed

variable {kind : Kind} {α : Type} {bound bound' : Int} {id : α → Id kind}
  {table : SortedMap (Id kind) α} {a b : α} {admits : α → Bool} {name : α → String}

theorem empty : Indexed bound id (∅ : SortedMap (Id kind) α) :=
  ⟨fun h => by simp at h, fun h => by simp at h⟩

theorem mono (h : Indexed bound id table) (hle : bound ≤ bound') : Indexed bound' id table :=
  ⟨h.own, fun hget => Int.lt_of_lt_of_le (h.below hget) hle⟩

theorem insert (h : Indexed bound id table) {i : Id kind} (hid : id a = i) (hlt : i.val < bound) :
    Indexed bound id (table.insert i a) := by
  constructor <;> intro j b hget <;> rw [SortedMap.get?_insert] at hget <;> split at hget
  · obtain rfl := Option.some.inj hget
    exact hid.trans (Eq.symm ‹_›)
  · exact h.own hget
  · simpa only [‹j = i›] using hlt
  · exact h.below hget

theorem erase (h : Indexed bound id table) (i : Id kind) : Indexed bound id (table.erase i) := by
  constructor <;> intro j b hget <;> rw [SortedMap.get?_erase] at hget <;> split at hget
  · cases hget
  · exact h.own hget
  · cases hget
  · exact h.below hget

theorem map (h : Indexed bound id table) {f : Id kind → α → α} (hf : ∀ i a, id (f i a) = id a) :
    Indexed bound id (table.map f) := by
  constructor <;> intro j b hget <;> rw [SortedMap.get?_map, Option.map_eq_some_iff] at hget <;>
    obtain ⟨a, ha, rfl⟩ := hget
  · exact (hf j a).trans (h.own ha)
  · exact h.below ha

theorem get?_of_mem (h : Indexed bound id table) (ha : a ∈ table.values) :
    table.get? (id a) = some a := by
  obtain ⟨i, hi⟩ := SortedMap.mem_values.1 ha
  rw [h.own hi, hi]

theorem mem_iff (h : Indexed bound id table) : a ∈ table.values ↔ table.get? (id a) = some a :=
  ⟨h.get?_of_mem, fun hget => SortedMap.mem_values.2 ⟨id a, hget⟩⟩

theorem get?_of_le (h : Indexed bound id table) {i : Id kind} (hi : bound ≤ i.val) :
    table.get? i = none := by
  cases hget : table.get? i with
  | none => rfl
  | some a =>
    have hbelow := h.below hget
    omega

theorem get?_next (h : Indexed bound id table) : table.get? ⟨bound⟩ = none := by
  cases hget : table.get? ⟨bound⟩ with
  | none => rfl
  | some a => exact absurd (h.below hget) (Int.lt_irrefl bound)

theorem get?_insert_next (h : Indexed bound id table) {i : Id kind} {a : α}
    (hget : table.get? i = some a) (b : α) : (table.insert ⟨bound⟩ b).get? i = some a := by
  have hne : i ≠ ⟨bound⟩ := by
    rintro rfl
    rw [h.get?_next] at hget
    cases hget
  rw [SortedMap.get?_insert_ne _ _ hne, hget]

theorem get?_insert?_next (h : Indexed bound id table) {i : Id kind} {a : α}
    (hget : table.get? i = some a) (o : Option α) : (table.insert? ⟨bound⟩ o).get? i = some a := by
  cases o with
  | none => exact hget
  | some b => exact h.get?_insert_next hget b

theorem eq_of_id_eq (ha : table.get? (id a) = some a) (hb : table.get? (id b) = some b)
    (hid : id b = id a) : b = a := by
  rw [hid, ha] at hb
  exact (Option.some.inj hb).symm

/-! Reads in the order of names. -/

theorem pairwise_select (table : SortedMap (Id kind) α) (admits : α → Bool) (name : α → String) :
    ((Tables.select table admits name).map name).Pairwise (· ≤ ·) := by
  have hany : (table.values.filter admits).Pairwise fun _ _ => True :=
    List.pairwise_of_forall fun _ _ => trivial
  rw [List.pairwise_map]
  exact (Tables.pairwise_sortByName name hany).imp fun h => h.1

theorem mem_select (h : Indexed bound id table) :
    a ∈ Tables.select table admits name ↔ table.get? (id a) = some a ∧ admits a = true := by
  rw [Tables.mem_select_iff, h.mem_iff]

theorem mem_select_of_get? (h : Indexed bound id table) {i : Id kind} (ha : table.get? i = some a)
    (hadm : admits a = true) : a ∈ Tables.select table admits name :=
  h.mem_select.2 ⟨by rw [h.own ha, ha], hadm⟩

theorem head?_select (h : Indexed bound id table)
    (ha : (Tables.select table admits name).head? = some a) :
    table.get? (id a) = some a ∧ admits a = true :=
  h.mem_select.1 (List.mem_of_mem_head? (by rw [ha]; rfl))

theorem head?_select_of_unique (h : Indexed bound id table) (ha : table.get? (id a) = some a)
    (hadm : admits a = true)
    (hunique : ∀ b, table.get? (id b) = some b → admits b = true → b = a) :
    (Tables.select table admits name).head? = some a := by
  have hmem : a ∈ Tables.select table admits name := h.mem_select.2 ⟨ha, hadm⟩
  cases hlist : Tables.select table admits name with
  | nil =>
    rw [hlist] at hmem
    cases hmem
  | cons b l =>
    have hb : b ∈ Tables.select table admits name := by
      rw [hlist]
      exact List.mem_cons_self
    obtain ⟨hb, hadm⟩ := h.mem_select.1 hb
    rw [List.head?_cons, hunique b hb hadm]

theorem not_admitted (h : Indexed bound id table) (hnil : Tables.select table admits name = [])
    {i : Id kind} (ha : table.get? i = some a) : admits a = false := by
  cases hadm : admits a with
  | false => rfl
  | true =>
    have hmem : a ∈ Tables.select table admits name :=
      h.mem_select.2 ⟨by rw [h.own ha]; exact ha, hadm⟩
    rw [hnil] at hmem
    cases hmem

theorem length_select (table : SortedMap (Id kind) α) (admits : α → Bool) (name : α → String)
    (hall : ∀ a, admits a = true) : (Tables.select table admits name).length = table.size := by
  rw [Tables.select, Tables.sortByName, List.length_mergeSort, List.filter_eq_self.2 fun a _ => hall a,
    SortedMap.values, List.length_map, SortedMap.size]

theorem map_values (h : Indexed bound id table) : table.values.map id = table.keys := by
  rw [SortedMap.values, SortedMap.keys, List.map_map]
  exact List.map_congr_left fun e he => h.own (SortedMap.mem_entries.1 he)

theorem nodup_ids (h : Indexed bound id table) :
    ((Tables.select table admits name).map id).Nodup := by
  have hsorted : ((Tables.select table admits name).map id).Perm
      ((table.values.filter admits).map id) := (List.mergeSort_perm _ _).map id
  rw [hsorted.nodup_iff]
  refine List.Nodup.sublist (List.filter_sublist.map id) ?_
  rw [h.map_values]
  exact table.nodup_keys

end Indexed

namespace Tables

structure Numbered (t : Tables) : Prop where
  products : Indexed t.nextId Product.id t.products
  pools : Indexed t.nextId Pool.id t.pools
  bfeClusters : Indexed t.nextId BfeCluster.id t.bfeClusters
  subClusters : Indexed t.nextId SubCluster.Record.id t.subClusters
  clusters : Indexed t.nextId Cluster.Record.id t.clusters
  domains : Indexed t.nextId Domain.id t.domains
  certificates : Indexed t.nextId Certificate.id t.certificates

theorem numbered_start : start.Numbered where
  products := Indexed.empty.insert rfl (by decide)
  pools := .empty
  bfeClusters := .empty
  subClusters := .empty
  clusters := .empty
  domains := .empty
  certificates := .empty

end Tables
end FleetControl.Store
