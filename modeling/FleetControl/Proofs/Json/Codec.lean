import FleetControl.Json.Codec
import FleetControl.Proofs.Json.Rendering
import FleetControl.Proofs.SortedMap

/-!
Codecs whose readers return what the writers were given. A reader asks an object for its members by
name, so it makes no difference to it whether the members were sorted before; a value is therefore
determined by the canonical text it is written as.
-/

namespace FleetControl

namespace SortedMap

variable {α β : Type} [Ord α] [Std.LawfulEqOrd α] [Std.TransOrd α] [DecidableEq α]

theorem ofList_entries (m : SortedMap α β) : ofList m.entries = m := by
  apply ext
  intro k
  cases hk : (ofList m.entries).get? k with
  | some v => exact (mem_entries.1 (mem_of_get?_ofList hk)).symm
  | none =>
    cases hm : m.get? k with
    | none => rfl
    | some v =>
      have hkey : k ∈ m.entries.map Prod.fst := mem_keys.2 ⟨v, hm⟩
      have hcontains := contains_ofList.2 hkey
      rw [contains, hk] at hcontains
      cases hcontains

end SortedMap

namespace Json

open RecordReader

variable {α β : Type} {ms : List (String × Json)} {f : Json → Json}

theorem canonicalItems_eq (js : List Json) : canonicalItems js = js.map canonical := by
  induction js with
  | nil => rfl
  | cons j js ih => rw [canonicalItems, ih, List.map_cons]

theorem canonicalMembers_eq (ms : List (String × Json)) :
    canonicalMembers ms = ms.map fun m => (m.1, m.2.canonical) := by
  induction ms with
  | nil => rfl
  | cons m ms ih => rw [canonicalMembers, ih, List.map_cons]

theorem get?_ofList (ms : List (String × Json)) (name : String) :
    (SortedMap.ofList ms).get? name = member? name ms := by
  have along : ∀ m : SortedMap String Json,
      (ms.foldl (fun m e => m.insert e.1 e.2) m).get? name =
        ms.foldl (fun found e => if e.1 = name then some e.2 else found) (m.get? name) := by
    induction ms with
    | nil => intro m; rfl
    | cons e ms ih =>
      intro m
      rw [List.foldl_cons, List.foldl_cons, ih, SortedMap.get?_insert]
      simp only [eq_comm]
  exact along ∅

theorem member?_map (f : Json → Json) (ms : List (String × Json)) (name : String) :
    member? name (ms.map fun m => (m.1, f m.2)) = (member? name ms).map f := by
  have along : ∀ found : Option Json,
      (ms.map fun m => (m.1, f m.2)).foldl
          (fun found m => if m.1 = name then some m.2 else found) (found.map f) =
        (ms.foldl (fun found m => if m.1 = name then some m.2 else found) found).map f := by
    induction ms with
    | nil => intro found; rfl
    | cons m ms ih =>
      intro found
      rw [List.map_cons, List.foldl_cons, List.foldl_cons, ← ih]
      congr 1
      split <;> rfl
  exact along none

theorem member?_sorted (ms : List (String × Json)) (name : String) :
    member? name (SortedMap.ofList ms).entries = member? name ms := by
  rw [← get?_ofList, SortedMap.ofList_entries, get?_ofList]

/-- A way to rewrite values that leaves members where readers look for them. -/
structure Rearranges (f : Json → Json) : Prop where
  onNull : f null = null
  onBool : ∀ b, f (bool b) = bool b
  onInt : ∀ n, f (int n) = int n
  onStr : ∀ s, f (str s) = str s
  onArr : ∀ js, f (arr js) = arr (js.map f)
  onObj : ∀ ms, ∃ ns, f (obj ms) = obj ns ∧ ∀ name, member? name ns = (member? name ms).map f
  onMap : ∀ m : SortedMap String Json, f (obj m.entries) = obj (m.map fun _ => f).entries

theorem rearranges_id : Rearranges id where
  onNull := rfl
  onBool _ := rfl
  onInt _ := rfl
  onStr _ := rfl
  onArr js := congrArg arr js.map_id.symm
  onObj ms := ⟨ms, rfl, fun name => (congrFun Option.map_id (member? name ms)).symm⟩
  onMap m := congrArg (fun m : SortedMap String Json => obj m.entries) m.map_id.symm

theorem rearranges_canonical : Rearranges canonical where
  onNull := by simp [canonical]
  onBool _ := by simp [canonical]
  onInt _ := by simp [canonical]
  onStr _ := by simp [canonical]
  onArr js := by rw [canonical, canonicalItems_eq]
  onObj ms := by
    refine ⟨_, by rw [canonical], fun name => ?_⟩
    rw [member?_sorted, canonicalMembers_eq, member?_map]
  onMap m := by
    have hmembers : canonicalMembers m.entries = (m.map fun _ => canonical).entries :=
      canonicalMembers_eq m.entries
    rw [canonical, hmembers, SortedMap.ofList_entries]

/-! Exactness. -/

theorem itemsExact_iff {js : List Json} :
    itemsExact js = true ↔ ∀ j ∈ js, j.isExact = true := by
  induction js with
  | nil => simp [itemsExact]
  | cons j js ih => simp [itemsExact, ih]

theorem membersExact_iff {ms : List (String × Json)} :
    membersExact ms = true ↔ ∀ m ∈ ms, m.2.isExact = true := by
  induction ms with
  | nil => simp [membersExact]
  | cons m ms ih => simp [membersExact, ih]

mutual

theorem isExact_canonical (j : Json) (h : j.isExact = true) : j.canonical.isExact = true := by
  match j with
  | arr items =>
    rw [canonical, isExact]
    rw [isExact] at h
    exact itemsExact_canonical items h
  | obj members =>
    rw [canonical, isExact, membersExact_iff]
    rintro ⟨name, j⟩ hmem
    rw [isExact] at h
    have hgiven : (name, j) ∈ canonicalMembers members :=
      SortedMap.mem_of_get?_ofList (SortedMap.mem_entries.1 hmem)
    exact membersExact_iff.1 (membersExact_canonical members h) _ hgiven
  | null | bool _ | int _ | str _ => simpa [canonical] using h
  | real _ => cases h

theorem itemsExact_canonical (js : List Json) (h : itemsExact js = true) :
    itemsExact (canonicalItems js) = true := by
  match js with
  | [] => rfl
  | j :: js =>
    simp only [itemsExact, Bool.and_eq_true] at h
    simp only [canonicalItems, itemsExact, Bool.and_eq_true]
    exact ⟨isExact_canonical j h.1, itemsExact_canonical js h.2⟩

theorem membersExact_canonical (ms : List (String × Json)) (h : membersExact ms = true) :
    membersExact (canonicalMembers ms) = true := by
  match ms with
  | [] => rfl
  | (k, j) :: ms =>
    simp only [membersExact, Bool.and_eq_true] at h
    simp only [canonicalMembers, membersExact, Bool.and_eq_true]
    exact ⟨isExact_canonical j h.1, membersExact_canonical ms h.2⟩

end

/-- Values are written without reals, and read back whether or not they are rearranged. -/
class LawfulCodec (α : Type) [Encode α] [Decode α] : Prop where
  exact : ∀ a : α, (encode a).isExact = true
  decode : ∀ {f : Json → Json}, Rearranges f → ∀ a : α, decode? (f (encode a)) = some a

attribute [simp] LawfulCodec.exact

/-- The canonical text says which value was written. -/
theorem canonical_text_injective [Encode α] [Decode α] [LawfulCodec α] {a b : α}
    (h : (encode a).canonical.text = (encode b).canonical.text) : a = b := by
  have ha := isExact_canonical (encode a) (LawfulCodec.exact a)
  have hb := isExact_canonical (encode b) (LawfulCodec.exact b)
  have hread := LawfulCodec.decode rearranges_canonical a
  rw [text_injective ha hb h, LawfulCodec.decode rearranges_canonical b] at hread
  exact (Option.some.inj hread).symm

/-! Scalars. -/

instance : LawfulCodec String where
  exact _ := rfl
  decode hf s := by
    have hkept := hf.onStr s
    simp only [encode, hkept]
    rfl

instance : LawfulCodec Bool where
  exact _ := rfl
  decode hf b := by
    have hkept := hf.onBool b
    simp only [encode, hkept]
    rfl

theorem integer?_int {low high n : Int} (h : low ≤ n ∧ n ≤ high) :
    integer? low high (int n) = some n := if_pos h

instance : LawfulCodec Int32 where
  exact _ := rfl
  decode hf n := by
    have hkept := hf.onInt n.toInt
    have hrange : integer? (-0x80000000) 0x7FFFFFFF (int n.toInt) = some n.toInt :=
      integer?_int ⟨n.le_toInt, n.toInt_le⟩
    simp only [encode, hkept, decode?, hrange, Option.map_some, Int32.ofInt_toInt]

instance : LawfulCodec UInt16 where
  exact _ := rfl
  decode hf n := by
    have hkept := hf.onInt n.toNat
    have hlow := n.toNat_lt
    simp only [encode, hkept, decode?]
    rw [integer?_int (by omega)]
    simp

instance : LawfulCodec (Option String) where
  exact o := by cases o <;> rfl
  decode hf o := by
    cases o with
    | none =>
      have hkept := hf.onNull
      simp only [encode, hkept]
      rfl
    | some s =>
      have hkept := hf.onStr s
      simp only [encode, hkept]
      rfl

theorem constant?_str (hf : Rearranges f) {names : List (String × α)} {s : String} {a : α}
    (h : names.lookup s = some a) : constant? names (f (str s)) = some a := by
  rw [hf.onStr, constant?, h]

/-! Lists and maps. -/

theorem mapM_decode [Encode α] [Decode α] [LawfulCodec α] (hf : Rearranges f) (l : List α) :
    ((l.map encode).map f).mapM decode? = some l := by
  induction l with
  | nil => rfl
  | cons a l ih =>
    rw [List.map_cons, List.map_cons, List.mapM_cons, LawfulCodec.decode hf, ih]
    rfl

instance [Encode α] [Decode α] [LawfulCodec α] : LawfulCodec (List α) where
  exact l := itemsExact_iff.2 (by simp)
  decode hf l := by
    have hkept := hf.onArr (l.map encode)
    simp only [encode, hkept, decode?]
    exact mapM_decode hf l

theorem mapM_members [Encode β] [Decode β] [LawfulCodec β] (hf : Rearranges f)
    (l : List (String × β)) :
    (l.map fun e => (e.1, f (encode e.2))).mapM
      (fun m => (decode? m.2).map fun v => (m.1, v)) = some l := by
  induction l with
  | nil => rfl
  | cons e l ih =>
    rw [List.map_cons, List.mapM_cons, LawfulCodec.decode hf, ih]
    rfl

instance [Encode β] [Decode β] [LawfulCodec β] : LawfulCodec (SortedMap String β) where
  exact m := by
    refine membersExact_iff.2 fun e he => ?_
    obtain ⟨e', -, rfl⟩ := List.mem_map.1 he
    exact LawfulCodec.exact e'.2
  decode {f} hf m := by
    have hkept : f (encode m) = obj (m.entries.map fun e => (e.1, f (encode e.2))) := by
      have hentries := hf.onMap (m.map fun _ => encode)
      simp only [SortedMap.map, List.map_map] at hentries
      exact hentries
    simp only [hkept, decode?]
    rw [mapM_members hf, Option.map_some, SortedMap.ofList_entries]

/-! Records. -/

def Reads (f : Json → Json) (ms : List (String × Json)) (r : RecordReader α) (a : α) : Prop :=
  ∀ ns, (∀ name, member? name ns = (member? name ms).map f) →
    r.run (.named ns) = some (a, .named ns)

theorem reads_pure (f : Json → Json) (ms : List (String × Json)) (a : α) :
    Reads f ms (pure a) a := fun _ _ => rfl

theorem reads_bind {r : RecordReader α} {k : α → RecordReader β} {a : α} {b : β}
    (hr : Reads f ms r a) (hk : Reads f ms (k a) b) : Reads f ms (r >>= k) b := by
  intro ns hns
  rw [StateT.run_bind, hr ns hns]
  exact hk ns hns

theorem reads_required [Encode α] [Decode α] [LawfulCodec α] (hf : Rearranges f) {name : String}
    {a : α} (h : member? name ms = some (encode a)) : Reads f ms (required name) a := by
  intro ns hns
  have hfound : member? name ns = some (f (encode a)) := by rw [hns, h]; rfl
  have hread : decode? (f (encode a)) = some a := LawfulCodec.decode hf a
  simp [required, next?, hfound, hread]

theorem reads_defaulted [Encode α] [Decode α] [LawfulCodec α] (hf : Rearranges f) {name : String}
    {fallback a : α} (h : member? name ms = some (encode a)) :
    Reads f ms (defaulted name fallback) a := by
  intro ns hns
  have hfound : member? name ns = some (f (encode a)) := by rw [hns, h]; rfl
  have hread : decode? (f (encode a)) = some a := LawfulCodec.decode hf a
  simp [defaulted, next?, hfound, hread]

theorem reads_optional (hf : Rearranges f) {name : String} {a : Option String}
    (h : member? name ms = a.map encode) : Reads f ms (optional name) a := by
  intro ns hns
  have hfound : member? name ns = a.map (f ∘ encode) := by rw [hns, h, Option.map_map]
  cases a with
  | none => simp [RecordReader.optional, hfound]
  | some s =>
    have hread : decode? (α := Option String) (f (encode s)) = some (some s) :=
      LawfulCodec.decode hf (some s)
    simp [RecordReader.optional, required, next?, hfound, hread]

theorem decode_record (hf : Rearranges f) {r : RecordReader α} {a : α} (h : Reads f ms r a) :
    record? r (f (obj ms)) = some a := by
  obtain ⟨ns, hobj, hns⟩ := hf.onObj ms
  rw [hobj, record?, h ns hns]
  rfl

end Json
end FleetControl
