/-!
Finite maps kept as entries in strictly increasing key order. Two maps with the same entries are
equal, so a map is a value that can be compared, printed and signed without choosing an order first.
-/

namespace FleetControl

/-- A finite map whose entries are listed by strictly increasing key. -/
structure SortedMap (α : Type) (β : Type) [Ord α] where
  entries : List (α × β)
  increasing : (entries.map Prod.fst).Pairwise (fun a b => compare a b = .lt)
  deriving DecidableEq

namespace SortedMap

variable {α β γ ε : Type} [Ord α]

theorem ext_entries {m n : SortedMap α β} (h : m.entries = n.entries) : m = n := by
  cases m; cases n; simp_all

def empty : SortedMap α β := ⟨[], by simp⟩

instance : EmptyCollection (SortedMap α β) := ⟨empty⟩
instance : Inhabited (SortedMap α β) := ⟨empty⟩

def isEmpty (m : SortedMap α β) : Bool := m.entries.isEmpty

def size (m : SortedMap α β) : Nat := m.entries.length

def keys (m : SortedMap α β) : List α := m.entries.map Prod.fst

def values (m : SortedMap α β) : List β := m.entries.map Prod.snd

def lookup (k : α) : List (α × β) → Option β
  | [] => none
  | (k', v) :: rest => if compare k k' = .eq then some v else lookup k rest

def get? (m : SortedMap α β) (k : α) : Option β := lookup k m.entries

def contains (m : SortedMap α β) (k : α) : Bool := (m.get? k).isSome

def insertEntry (k : α) (v : β) : List (α × β) → List (α × β)
  | [] => [(k, v)]
  | (k', v') :: rest =>
    match compare k k' with
    | .lt => (k, v) :: (k', v') :: rest
    | .eq => (k, v) :: rest
    | .gt => (k', v') :: insertEntry k v rest

theorem mem_keys_insertEntry {k x : α} {v : β} {l : List (α × β)} :
    x ∈ (insertEntry k v l).map Prod.fst → x = k ∨ x ∈ l.map Prod.fst := by
  induction l with
  | nil => simp [insertEntry]
  | cons hd tl ih =>
    obtain ⟨k', v'⟩ := hd
    rw [insertEntry]
    split <;> simp only [List.map_cons, List.mem_cons] <;> grind

theorem insertEntry_increasing [Std.TransOrd α] [Std.LawfulEqOrd α] {k : α} {v : β}
    {l : List (α × β)} (h : (l.map Prod.fst).Pairwise (fun a b => compare a b = .lt)) :
    ((insertEntry k v l).map Prod.fst).Pairwise (fun a b => compare a b = .lt) := by
  induction l with
  | nil => simp [insertEntry]
  | cons hd tl ih =>
    obtain ⟨k', v'⟩ := hd
    rw [insertEntry]
    simp only [List.map_cons, List.pairwise_cons] at h
    split
    · rename_i hlt
      simp only [List.map_cons, List.pairwise_cons, List.mem_cons]
      refine ⟨?_, h⟩
      rintro x (rfl | hx)
      · exact hlt
      · exact Std.TransCmp.lt_trans hlt (h.1 x hx)
    · rename_i heq
      have := Std.LawfulEqCmp.eq_of_compare heq
      subst this
      simpa only [List.map_cons, List.pairwise_cons] using h
    · rename_i hgt
      simp only [List.map_cons, List.pairwise_cons]
      refine ⟨fun x hx => ?_, ih h.2⟩
      rcases mem_keys_insertEntry hx with rfl | hx
      · exact Std.OrientedCmp.lt_of_gt hgt
      · exact h.1 x hx

def insert [Std.TransOrd α] [Std.LawfulEqOrd α] (m : SortedMap α β) (k : α) (v : β) :
    SortedMap α β :=
  ⟨insertEntry k v m.entries, insertEntry_increasing m.increasing⟩

def filter (p : α → β → Bool) (m : SortedMap α β) : SortedMap α β :=
  ⟨m.entries.filter fun e => p e.1 e.2,
    m.increasing.sublist (List.Sublist.map Prod.fst List.filter_sublist)⟩

def erase (m : SortedMap α β) (k : α) : SortedMap α β :=
  m.filter fun k' _ => compare k k' ≠ .eq

def map (f : α → β → γ) (m : SortedMap α β) : SortedMap α γ :=
  ⟨m.entries.map fun e => (e.1, f e.1 e.2), by
    simpa [List.map_map, Function.comp_def] using m.increasing⟩

/-- The entries of a list in turn; of two entries with one key the later wins. -/
def ofList [Std.TransOrd α] [Std.LawfulEqOrd α] (l : List (α × β)) : SortedMap α β :=
  l.foldl (fun m e => m.insert e.1 e.2) ∅

def mapEntriesExcept (f : α → β → Except ε γ) :
    (l : List (α × β)) → Except ε { l' : List (α × γ) // l'.map Prod.fst = l.map Prod.fst }
  | [] => .ok ⟨[], rfl⟩
  | (k, v) :: rest =>
    match f k v with
    | .error e => .error e
    | .ok w =>
      match mapEntriesExcept f rest with
      | .error e => .error e
      | .ok ⟨rest', h⟩ => .ok ⟨(k, w) :: rest', by simp [h]⟩

def mapExcept (f : α → β → Except ε γ) (m : SortedMap α β) : Except ε (SortedMap α γ) :=
  match mapEntriesExcept f m.entries with
  | .error e => .error e
  | .ok ⟨l, h⟩ => .ok ⟨l, h ▸ m.increasing⟩

end SortedMap
end FleetControl
