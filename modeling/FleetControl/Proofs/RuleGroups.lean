import FleetControl.Proofs.SortedMap
import FleetControl.Store.Tables
import FleetControl.Store.Database

/-!
Rules put together by product. Rules of many products may come in any order of the products, one by one
or a list at a time: each product ends up with its own, in the order in which they came. So the rules of
a map, taken apart into single rules, make up the map again.
-/

namespace FleetControl

namespace SortedMap

variable {α β : Type} [Ord α] [Std.LawfulEqOrd α] [DecidableEq α]

theorem filter_entries {l : List (α × β)} {m : SortedMap α β} (h : l.Perm m.entries) (k : α) :
    l.filter (fun e => e.1 = k) = (m.get? k).toList.map fun v => (k, v) := by
  have hnodup : (m.entries.filter fun e => e.1 = k).Nodup :=
    (List.Nodup.of_map Prod.fst (nodup_keys m)).filter _
  have hentries : (m.entries.filter fun e => e.1 = k).Perm
      ((m.get? k).toList.map fun v => (k, v)) := by
    refine (List.perm_ext_iff_of_nodup hnodup ?_).2 ?_
    · cases m.get? k with
      | none => exact List.nodup_nil
      | some v => exact List.nodup_singleton _
    · rintro ⟨x, v⟩
      rw [List.mem_filter, decide_eq_true_eq, mem_entries]
      constructor
      · rintro ⟨hget, rfl⟩
        rw [hget]
        exact List.mem_cons_self
      · intro hmem
        obtain ⟨w, hw, heq⟩ := List.mem_map.1 hmem
        cases heq
        exact ⟨Option.mem_toList.1 hw, rfl⟩
  have hperm := (h.filter fun e => decide (e.1 = k)).trans hentries
  cases hget : m.get? k with
  | none =>
    rw [hget] at hperm
    exact hperm.eq_nil
  | some v =>
    rw [hget] at hperm
    exact List.perm_singleton.1 hperm

end SortedMap

namespace RouteRules

variable {γ : Type} {p : ProductId}

theorem append_empty (r : RouteRules) : r.append .empty = r := by
  rw [append, empty, List.append_nil, List.append_nil]

theorem empty_append (r : RouteRules) : RouteRules.empty.append r = r := rfl

theorem append_append (r s t : RouteRules) : (r.append s).append t = r.append (s.append t) := by
  simp only [append, List.append_assoc]

def addTo (m : SortedMap ProductId RouteRules) (e : ProductId × RouteRules) :
    SortedMap ProductId RouteRules :=
  m.insert e.1 (((m.get? e.1).getD .empty).append e.2)

theorem get?_foldl_addTo (l : List (ProductId × RouteRules)) (m : SortedMap ProductId RouteRules)
    (p : ProductId) : (l.foldl addTo m).get? p =
      (l.filter fun e => e.1 = p).foldl (fun o e => some ((o.getD .empty).append e.2))
        (m.get? p) := by
  induction l generalizing m with
  | nil => rfl
  | cons e l ih =>
    rw [List.foldl_cons, ih, addTo, List.filter_cons]
    by_cases he : e.1 = p
    · subst he
      rw [SortedMap.get?_insert_self, if_pos (decide_eq_true rfl), List.foldl_cons]
    · rw [SortedMap.get?_insert_ne _ _ (Ne.symm he), if_neg (by simpa using he)]

def behind (o : Option RouteRules) (r : RouteRules) : Option RouteRules :=
  if r = .empty then o else some ((o.getD .empty).append r)

theorem foldl_behind (one : γ → RouteRules) (all : List γ → RouteRules)
    (hnil : all [] = .empty) (hcons : ∀ a as, all (a :: as) = (one a).append (all as))
    (hone : ∀ a as, all (a :: as) ≠ .empty) (as : List γ) (o : Option RouteRules) :
    as.foldl (fun o a => some ((o.getD .empty).append (one a))) o = behind o (all as) := by
  induction as generalizing o with
  | nil => rw [List.foldl_nil, hnil, behind, if_pos rfl]
  | cons a as ih =>
    rw [List.foldl_cons, ih, behind, behind, if_neg (hone a as), hcons, Option.getD_some]
    split
    · rename_i hempty
      rw [hempty, append_empty]
    · rw [append_append]

def own (p : ProductId) (l : List (ProductId × γ)) : List γ :=
  (l.filter fun e => e.1 = p).map Prod.snd

theorem get?_groupRules (basic : List (ProductId × BasicRule))
    (advanced : List (ProductId × AdvancedRule)) (p : ProductId) :
    (Store.Database.groupRules basic advanced).get? p =
      behind (behind none ⟨own p basic, []⟩) ⟨[], own p advanced⟩ := by
  have hgroup : Store.Database.groupRules basic advanced =
      (advanced.map fun e => (e.1, ⟨[], [e.2]⟩)).foldl addTo
        ((basic.map fun e => (e.1, ⟨[e.2], []⟩)).foldl addTo ∅) := by
    rw [List.foldl_map, List.foldl_map]
    rfl
  have hbasic := foldl_behind (fun b => (⟨[b], []⟩ : RouteRules)) (fun bs => ⟨bs, []⟩) rfl
    (fun _ _ => rfl) fun _ _ => by simp [empty]
  have hadvanced := foldl_behind (fun a => (⟨[], [a]⟩ : RouteRules)) (fun as => ⟨[], as⟩) rfl
    (fun _ _ => rfl) fun _ _ => by simp [empty]
  rw [hgroup, get?_foldl_addTo, get?_foldl_addTo, SortedMap.get?_empty, List.filter_map,
    List.filter_map, List.foldl_map, List.foldl_map, ← hbasic, ← hadvanced, own, own,
    List.foldl_map, List.foldl_map]
  rfl

theorem own_flatMap (rules : RouteRules → List γ) (l : List (ProductId × RouteRules)) :
    own p (l.flatMap fun e => (rules e.2).map fun r => (e.1, r)) =
      (l.filter fun e => e.1 = p).flatMap fun e => rules e.2 := by
  induction l with
  | nil => rfl
  | cons e l ih =>
    rw [own] at ih
    rw [own, List.flatMap_cons, List.filter_append, List.map_append, ih, List.filter_map,
      List.filter_cons]
    by_cases he : e.1 = p
    · simp [he, Function.comp_def]
    · simp [he, Function.comp_def]

theorem groupRules_entries {m : SortedMap ProductId RouteRules}
    (hrules : ∀ r ∈ m.values, r ≠ .empty) :
    Store.Database.groupRules (m.entries.flatMap fun e => e.2.basic.map fun r => (e.1, r))
      (m.entries.flatMap fun e => e.2.advanced.map fun r => (e.1, r)) = m := by
  refine SortedMap.ext fun p => ?_
  rw [get?_groupRules, own_flatMap, own_flatMap, SortedMap.filter_entries (List.Perm.refl _)]
  cases hget : m.get? p with
  | none => rfl
  | some r =>
    have hne : r ≠ .empty := hrules r (SortedMap.mem_values.2 ⟨p, hget⟩)
    have hjoined : (⟨r.basic, []⟩ : RouteRules).append ⟨[], r.advanced⟩ = r := by
      rw [append, List.append_nil, List.nil_append]
    simp only [Option.toList_some, List.map_cons, List.map_nil, List.flatMap_cons, List.flatMap_nil,
      List.append_nil]
    unfold behind
    split
    · rename_i hadvanced
      rw [hadvanced, append_empty] at hjoined
      rw [hjoined, if_neg hne]
      rfl
    · split
      · rename_i hbasic
        rw [hbasic, empty_append] at hjoined
        rw [hjoined]
        rfl
      · exact congrArg some hjoined

theorem foldl_addTo_entries {m : SortedMap ProductId RouteRules}
    {calls : List (ProductId × RouteRules)} (hcalls : calls.Perm m.entries) :
    calls.foldl addTo ∅ = m := by
  refine SortedMap.ext fun p => ?_
  rw [get?_foldl_addTo, SortedMap.filter_entries hcalls, SortedMap.get?_empty]
  cases m.get? p <;> rfl

end RouteRules
end FleetControl
