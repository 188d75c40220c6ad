import FleetControl.Proofs.Json.Codec
import FleetControl.Version
import Mathlib.Data.List.Forall2

/-!
What a signature stands for. Values that differ only in the order of their members, or in members that
a later one of the same name replaces, have one canonical text; values without reals that differ in
anything else have different ones. A signature tells values apart as well as digests tell their texts.
-/

namespace FleetControl

theorem mapM_eq_filterMap {α β : Type} (f : α → Option β) (l : List α) :
    l.mapM f = if l.all fun a => (f a).isSome then some (l.filterMap f) else none := by
  induction l with
  | nil => rfl
  | cons a l ih =>
    rw [List.mapM_cons, ih, List.all_cons, List.filterMap_cons]
    cases f a with
    | none => rfl
    | some b =>
      rw [Option.isSome_some, Bool.true_and]
      split <;> rfl

namespace Json

/-- Equal but for the order of members, where of members with one name the last counts. -/
inductive Alike : Json → Json → Prop
  | null : Alike null null
  | bool (b : Bool) : Alike (bool b) (bool b)
  | int (n : Int) : Alike (int n) (int n)
  | real (x : Double) : Alike (real x) (real x)
  | str (s : String) : Alike (str s) (str s)
  | arr {js ks : List Json} : List.Forall₂ Alike js ks → Alike (arr js) (arr ks)
  | obj {ms ns : List (String × Json)} :
      (∀ name, Option.Rel Alike (member? name ms) (member? name ns)) → Alike (obj ms) (obj ns)

variable {name : String} {ms ns : List (String × Json)} {v w : Json}

theorem mem_of_member? (h : member? name ms = some v) : (name, v) ∈ ms := by
  rw [← get?_ofList] at h
  exact SortedMap.mem_of_get?_ofList h

theorem member?_perm (h : ms.Perm ns) (hnames : (ms.map Prod.fst).Nodup) (name : String) :
    member? name ms = member? name ns := by
  have hnames' : (ns.map Prod.fst).Nodup := (h.map Prod.fst).nodup_iff.1 hnames
  rw [← get?_ofList, ← get?_ofList]
  apply Option.ext
  intro v
  rw [SortedMap.get?_ofList hnames, SortedMap.get?_ofList hnames', h.mem_iff]

theorem canonical_obj_eq_iff :
    (obj ms).canonical = (obj ns).canonical ↔
      ∀ name, (member? name ms).map canonical = (member? name ns).map canonical := by
  have hget (ms : List (String × Json)) (name : String) :
      (SortedMap.ofList (canonicalMembers ms)).get? name = (member? name ms).map canonical := by
    rw [get?_ofList, canonicalMembers_eq, member?_map]
  rw [canonical, canonical, Json.obj.injEq]
  constructor
  · intro h name
    rw [← hget, ← hget, SortedMap.ext_entries h]
  · intro h
    have hsame : SortedMap.ofList (canonicalMembers ms) = SortedMap.ofList (canonicalMembers ns) :=
      SortedMap.ext fun name => by rw [hget, hget, h]
    rw [hsame]

theorem map_canonical_eq_iff
    (h : ∀ m ∈ ms, ∀ w : Json, m.2.canonical = w.canonical ↔ Alike m.2 w) :
    (member? name ms).map canonical = (member? name ns).map canonical ↔
      Option.Rel Alike (member? name ms) (member? name ns) := by
  cases hms : member? name ms with
  | none =>
    cases member? name ns with
    | none => exact ⟨fun _ => .none, fun _ => rfl⟩
    | some w => exact ⟨nofun, nofun⟩
  | some v =>
    cases member? name ns with
    | none => exact ⟨nofun, nofun⟩
    | some w =>
      rw [Option.map_some, Option.map_some, Option.some.injEq, h _ (mem_of_member? hms) w]
      exact ⟨.some, fun hrel => by cases hrel; assumption⟩

mutual

theorem canonical_eq_iff (v w : Json) : v.canonical = w.canonical ↔ Alike v w := by
  cases v <;> cases w
  case null.null => exact ⟨fun _ => .null, fun _ => rfl⟩
  case bool.bool a b => exact ⟨fun h => by cases h; exact .bool a, fun h => by cases h; rfl⟩
  case int.int m n => exact ⟨fun h => by cases h; exact .int m, fun h => by cases h; rfl⟩
  case real.real x y => exact ⟨fun h => by cases h; exact .real x, fun h => by cases h; rfl⟩
  case str.str s t => exact ⟨fun h => by cases h; exact .str s, fun h => by cases h; rfl⟩
  case arr.arr js ks =>
    rw [canonical, canonical, Json.arr.injEq, canonicalItems_eq_iff js ks]
    exact ⟨.arr, fun h => by cases h; assumption⟩
  case obj.obj ms ns =>
    have hmembers := canonicalMembers_eq_iff ms
    rw [canonical_obj_eq_iff, forall_congr' fun name => map_canonical_eq_iff hmembers]
    exact ⟨.obj, fun h => by cases h; assumption⟩
  -- Values of two kinds are sorted to values of two kinds.
  all_goals exact ⟨nofun, nofun⟩

theorem canonicalItems_eq_iff (js ks : List Json) :
    canonicalItems js = canonicalItems ks ↔ List.Forall₂ Alike js ks := by
  match js, ks with
  | [], [] => exact ⟨fun _ => .nil, fun _ => rfl⟩
  | [], k :: ks => exact ⟨nofun, nofun⟩
  | j :: js, [] => exact ⟨nofun, nofun⟩
  | j :: js, k :: ks =>
    rw [canonicalItems, canonicalItems, List.cons.injEq, canonical_eq_iff j k,
      canonicalItems_eq_iff js ks, List.forall₂_cons]

theorem canonicalMembers_eq_iff (ms : List (String × Json)) :
    ∀ m ∈ ms, ∀ w : Json, m.2.canonical = w.canonical ↔ Alike m.2 w := by
  match ms with
  | [] => exact fun m hm => absurd hm List.not_mem_nil
  | (name, v) :: ms =>
    intro m hm w
    rcases List.mem_cons.1 hm with rfl | hm
    · exact canonical_eq_iff v w
    · exact canonicalMembers_eq_iff ms m hm w

end

/-- Up to the order of members a value is what its canonical text writes. -/
theorem canonical_text_eq_iff (hv : v.isExact = true) (hw : w.isExact = true) :
    v.canonical.text = w.canonical.text ↔ Alike v w := by
  rw [← canonical_eq_iff]
  constructor
  · exact text_injective (isExact_canonical v hv) (isExact_canonical w hw)
  · intro h
    rw [h]

theorem alike_obj_of_perm (h : ms.Perm ns) (hnames : (ms.map Prod.fst).Nodup) :
    Alike (obj ms) (obj ns) := by
  rw [← canonical_eq_iff, canonical_obj_eq_iff]
  intro name
  rw [member?_perm h hnames]

end Json

namespace Version

open Json

variable {pairs pairs' : List (Json × Json)} {v w : Json}

def DigestsDiffer (v w : Json) : Prop :=
  v.canonical.text ≠ w.canonical.text →
    Sha256.ofText v.canonical.text ≠ Sha256.ofText w.canonical.text

def memberOf? (p : Json × Json) : Option (String × Json) := (keyText? p.1).map fun k => (k, p.2)

theorem signPairs_eq (pairs : List (Json × Json)) :
    signPairs pairs = if pairs.all fun p => (memberOf? p).isSome then
      .ok (sign (obj (pairs.filterMap memberOf?))) else .error .badKey := by
  have hmembers : pairs.mapM (fun p => (keyText? p.1).map fun k => (k, p.2)) = _ :=
    mapM_eq_filterMap memberOf? pairs
  rw [signPairs, hmembers]
  cases pairs.all fun p => (memberOf? p).isSome <;> rfl

theorem map_fst_members (pairs : List (Json × Json)) :
    (pairs.filterMap memberOf?).map Prod.fst = pairs.filterMap fun p => keyText? p.1 := by
  rw [List.map_filterMap]
  congr 1
  funext p
  rw [memberOf?, Option.map_map]
  exact Option.map_id_apply

theorem sign_eq_of_alike (h : Alike v w) : sign v = sign w := by
  rw [sign, sign, (canonical_eq_iff v w).2 h]

theorem signPairs_perm (h : pairs.Perm pairs')
    (hkeys : (pairs.filterMap fun p => keyText? p.1).Nodup) : signPairs pairs = signPairs pairs' := by
  have hmembers : (pairs.filterMap memberOf?).Perm (pairs'.filterMap memberOf?) :=
    h.filterMap memberOf?
  rw [← map_fst_members] at hkeys
  rw [signPairs_eq, signPairs_eq, h.all_eq,
    sign_eq_of_alike (alike_obj_of_perm hmembers hkeys)]

/-- Canonical texts are equal just for values that are alike, and so are signatures unless digests
collide. -/
theorem sign_identifies (hv : v.isExact = true) (hw : w.isExact = true) :
    (v.canonical.text = w.canonical.text ↔ Alike v w) ∧
      (Alike v w → sign v = sign w) ∧
      (DigestsDiffer v w → ¬ Alike v w → sign v ≠ sign w) ∧
      ∀ pairs pairs' : List (Json × Json), pairs.Perm pairs' →
        (pairs.filterMap fun p => keyText? p.1).Nodup → signPairs pairs = signPairs pairs' := by
  have htexts := canonical_text_eq_iff hv hw
  refine ⟨htexts, sign_eq_of_alike, fun hdiffer hunlike => ?_, fun _ _ => signPairs_perm⟩
  exact hdiffer fun htext => hunlike (htexts.1 htext)

theorem reordered_identified :
    let inner := obj [("y", str "\"\\\x07é"), ("x", int (-9223372036854775808))]
    let v := obj [("b", arr [int 1, inner]), ("a", null), ("a", bool true)]
    let w := obj [("a", bool true), ("b", arr [int 1, inner])]
    let u := obj [("a", bool true), ("b", arr [int 1, str "\"\\\x07e"])]
    Alike v w ∧ sign v = sign w ∧ ¬ Alike v u ∧ sign v ≠ sign u ∧
      signPairs [(int 7, v), (str "8", w)] = signPairs [(str "8", w), (int 7, v)] := by
  intro inner v w u
  obtain ⟨hsame, hsign, -, hpairs⟩ := sign_identifies (v := v) (w := w) rfl rfl
  obtain ⟨hother, -, hdiffer, -⟩ := sign_identifies (v := v) (w := u) rfl rfl
  have halike : Alike v w := hsame.1 (by decide +kernel)
  have hunlike : ¬ Alike v u := fun h => absurd (hother.2 h) (by decide +kernel)
  have hdigests : DigestsDiffer v u := fun _ => by decide +kernel
  exact ⟨halike, hsign halike, hunlike, hdiffer hdigests hunlike,
    hpairs _ _ (List.Perm.swap _ _ _) (by decide +kernel)⟩

end Version
end FleetControl
