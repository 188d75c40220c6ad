import FleetControl.Proofs.Coverage
import FleetControl.Proofs.Identity

/-!
Names of pools. A pool is asked for by its full name or, where its suffix has no dot, by the suffix
alone; both lead to one full name, which stays as it is when it is qualified again and which no other
owner has. So the managers answer the same for both spellings, and what they find under a product's
name is the product's.
-/

namespace FleetControl

theorem Validation.dot_not_mem {s : String} (h : isEntityName s = true) : '.' ∉ s.toList := by
  intro hdot
  rw [isEntityName] at h
  split at h
  · cases h
  · rename_i c cs hs
    simp only [Bool.and_eq_true, List.all_eq_true] at h
    rw [hs] at hdot
    rcases List.mem_cons.1 hdot with rfl | hdot
    · exact absurd h.1.1 (by decide)
    · exact absurd (h.2 '.' hdot) (by decide)

namespace Pool

variable {owner other name a b full suffix : String}

def Spells (owner name full : String) : Prop :=
  ∃ suffix, suffix ≠ "" ∧ full = owner ++ "." ++ suffix ∧
    (name = full ∨ '.' ∉ suffix.toList ∧ name = suffix)

theorem toList_full (owner suffix : String) :
    (owner ++ "." ++ suffix).toList = owner.toList ++ '.' :: suffix.toList := by
  rw [String.toList_append, String.toList_append, List.append_assoc]
  rfl

theorem suffix_injective (h : owner ++ "." ++ a = owner ++ "." ++ b) : a = b := by
  have hlist := congrArg String.toList h
  rw [toList_full, toList_full] at hlist
  exact String.toList_injective (List.cons.inj (List.append_cancel_left hlist)).2

theorem splitOnce_full (hfree : '.' ∉ owner.toList) (suffix : String) :
    Text.splitOnce '.' (owner ++ "." ++ suffix).toList = some (owner.toList, suffix.toList) := by
  rw [toList_full, Text.splitOnce_append_cons hfree]

theorem qualify_bare (hne : name ≠ "") (hbare : '.' ∉ name.toList) :
    qualify owner name = .ok (owner ++ "." ++ name) := by
  have hempty : ¬ name.isEmpty = true := by rwa [String.isEmpty_iff]
  rw [qualify, if_neg hempty, Text.splitOnce_of_not_mem hbare]

theorem qualify_full (hfree : '.' ∉ owner.toList) (hne : suffix ≠ "") :
    qualify owner (owner ++ "." ++ suffix) = .ok (owner ++ "." ++ suffix) := by
  have hempty : ¬ (owner ++ "." ++ suffix).isEmpty = true := by
    rw [String.isEmpty_iff]
    intro hnil
    have hlist := toList_full owner suffix
    rw [hnil] at hlist
    exact List.append_ne_nil_of_right_ne_nil _ (List.cons_ne_nil _ _) hlist.symm
  have hafter : ¬ suffix.toList.isEmpty = true := by simpa using hne
  rw [qualify, if_neg hempty, splitOnce_full hfree]
  dsimp only
  rw [if_neg (not_not.2 rfl), if_neg hafter]

theorem qualify_dotted (hdot : '.' ∈ name.toList) (h : qualify owner name = .ok full) :
    name = full := by
  rw [qualify] at h
  split at h
  · cases h
  · split at h
    · rename_i hsplit
      exact absurd hdot (Text.splitOnce_eq_none.1 hsplit)
    · split at h
      · cases h
      · split at h
        · cases h
        · cases h
          rfl

theorem qualify_iff (hfree : '.' ∉ owner.toList) :
    qualify owner name = .ok full ↔ Spells owner name full := by
  constructor
  · intro h
    obtain ⟨suffix, hne, hfull⟩ := qualify_ok h
    refine ⟨suffix, hne, hfull, ?_⟩
    by_cases hdot : '.' ∈ name.toList
    · exact Or.inl (qualify_dotted hdot h)
    · have hname : name ≠ "" := by
        rintro rfl
        cases h
      rw [qualify_bare hname hdot, Except.ok.injEq, hfull] at h
      obtain rfl := suffix_injective h
      exact Or.inr ⟨hdot, rfl⟩
  · rintro ⟨suffix, hne, rfl, rfl | ⟨hbare, rfl⟩⟩
    · exact qualify_full hfree hne
    · exact qualify_bare hne hbare

theorem Spells.owner_eq (hfree : '.' ∉ owner.toList) (hother : '.' ∉ other.toList)
    (ha : Spells owner a full) (hb : Spells other b full) : owner = other := by
  obtain ⟨s, -, rfl, -⟩ := ha
  obtain ⟨s', -, hfull, -⟩ := hb
  have hsplit := splitOnce_full hfree s
  rw [hfull, splitOnce_full hother, Option.some.injEq, Prod.mk.injEq] at hsplit
  exact (String.toList_injective hsplit.1).symm

/-- Two spellings of one pool are the same, or the one is the suffix of the other. -/
theorem Spells.eq_or (ha : Spells owner a full) (hb : Spells owner b full) :
    a = b ∨ ('.' ∉ b.toList ∧ a = owner ++ "." ++ b) ∨ ('.' ∉ a.toList ∧ b = owner ++ "." ++ a) := by
  obtain ⟨s, -, rfl, ha⟩ := ha
  obtain ⟨s', -, hfull, hb⟩ := hb
  obtain rfl := suffix_injective hfull
  rcases ha with rfl | ⟨hbare, rfl⟩ <;> rcases hb with rfl | ⟨hbare', rfl⟩
  · exact Or.inl rfl
  · exact Or.inr (Or.inl ⟨hbare', rfl⟩)
  · exact Or.inr (Or.inr ⟨hbare, rfl⟩)
  · exact Or.inl rfl

theorem qualify_bare_eq_full (hfree : '.' ∉ owner.toList) (hne : name ≠ "")
    (hbare : '.' ∉ name.toList) : qualify owner name = qualify owner (owner ++ "." ++ name) := by
  rw [qualify_bare hne hbare, qualify_full hfree hne]

/-- What names come to under an owner. -/
structure Canonical (owner : String) : Prop where
  settled : ∀ name full, qualify owner name = .ok full →
    (∃ suffix, suffix ≠ "" ∧ full = owner ++ "." ++ suffix) ∧ qualify owner full = .ok full
  accepted : ∀ name, (∃ full, qualify owner name = .ok full) ↔
    name ≠ "" ∧ ('.' ∉ name.toList ∨ ∃ suffix, suffix ≠ "" ∧ name = owner ++ "." ++ suffix)
  spellings : ∀ a b full, qualify owner a = .ok full → qualify owner b = .ok full →
    a = b ∨ ('.' ∉ b.toList ∧ a = owner ++ "." ++ b) ∨ ('.' ∉ a.toList ∧ b = owner ++ "." ++ a)
  apart : ∀ other, '.' ∉ other.toList → other ≠ owner → ∀ a b full,
    qualify owner a = .ok full → qualify other b ≠ .ok full

theorem canonical_of_dotless (hfree : '.' ∉ owner.toList) : Canonical owner where
  settled name full h := by
    obtain ⟨suffix, hne, rfl⟩ := qualify_ok h
    exact ⟨⟨suffix, hne, rfl⟩, qualify_full hfree hne⟩
  accepted name := by
    constructor
    · rintro ⟨full, h⟩
      obtain ⟨suffix, hne, rfl, hname⟩ := (qualify_iff hfree).1 h
      refine ⟨?_, ?_⟩
      · rintro rfl
        cases h
      · rcases hname with rfl | ⟨hbare, rfl⟩
        · exact Or.inr ⟨suffix, hne, rfl⟩
        · exact Or.inl hbare
    · rintro ⟨hname, hbare | ⟨suffix, hne, rfl⟩⟩
      · exact ⟨_, qualify_bare hname hbare⟩
      · exact ⟨_, qualify_full hfree hne⟩
  spellings a b full ha hb := ((qualify_iff hfree).1 ha).eq_or ((qualify_iff hfree).1 hb)
  apart other hother hne a b full ha hb := by
    have hsame := ((qualify_iff hfree).1 ha).owner_eq hfree hother ((qualify_iff hother).1 hb)
    exact hne hsame.symm

end Pool

namespace Store.Tables

open Control Work

variable {t : Tables} {α : Type} {product name : String}

/-! Products and what is asked under their names. -/

theorem Reachable.productName_dotless (h : t.Reachable) {i : ProductId} {p : Product}
    (hp : t.products.get? i = some p) : '.' ∉ p.name.toList := by
  refine h.invariant (P := fun t => ∀ i p, t.products.get? i = some p → '.' ∉ p.name.toList)
    (fun i p hp => ?_) (fun {_ t c t'} _ hdotless he i p hp => ?_) i p hp
  · rcases SortedMap.get?_insert_eq_some.1 hp with ⟨-, rfl⟩ | ⟨-, hp⟩
    · decide
    · cases hp
  · cases he with
    | @productCreated d valid =>
      rcases SortedMap.get?_insert_eq_some.1 hp with ⟨-, rfl⟩ | ⟨-, hp⟩
      · rw [Findings.refusal?_eq_none, Product.Draft.findings] at valid
        simp only [Findings.isClean_append, Findings.isClean_ofField] at valid
        exact Validation.dot_not_mem (Validation.entityName_eq_none.1 valid.1.1)
      · exact hdotless i p hp
    | @productUpdated q change _ stored =>
      rcases SortedMap.get?_insert_eq_some.1 hp with ⟨-, rfl⟩ | ⟨-, hp⟩
      · exact hdotless q.id q stored
      · exact hdotless i p hp
    | productDeleted => exact hdotless i p (SortedMap.get?_erase_eq_some.1 hp).2
    | _ => exact hdotless i p hp

theorem run_requireProduct_congr (hn : t.Numbered) {k k' : Product → Work α}
    (hk : ∀ p, t.products.get? p.id = some p → p.name = product → k p = k' p) :
    (requireProduct product >>= k).run answer t = (requireProduct product >>= k').run answer t := by
  rw [bind_eq, bind_eq, run_bind, run_bind]
  cases hrun : (requireProduct product).run answer t with
  | mk result t' =>
    cases result with
    | error f => rfl
    | ok p =>
      obtain ⟨rfl, hp, hname⟩ := requireProduct_yields hn hrun
      dsimp only
      rw [hk p hp hname]

theorem perform_query_congr {w w' : Work α} (h : w.run answer t = w'.run answer t) :
    t.perform (.query w) = t.perform (.query w') := by
  rw [perform, perform, h]

theorem perform_update_congr {w w' : Work α} (h : w.run answer t = w'.run answer t) :
    t.perform (.update w) = t.perform (.update w') := by
  rw [perform, perform, h]

/-! One pool under two names. -/

structure AnswersAlike (t : Tables) (product a b : String) : Prop where
  update : ∀ instances, t.perform (Pools.updateInstances product a instances) =
    t.perform (Pools.updateInstances product b instances)
  delete : t.perform (Pools.delete product a) = t.perform (Pools.delete product b)
  fetch : t.perform (Pools.fetch product a) = t.perform (Pools.fetch product b)
  deletable : t.perform (Pools.deletable product a) = t.perform (Pools.deletable product b)

theorem Reachable.answersAlike (h : t.Reachable) (product : String) (hne : name ≠ "")
    (hbare : '.' ∉ name.toList) : t.AnswersAlike product name (product ++ "." ++ name) := by
  -- A product that is found has no dot in its name, and so both names are spellings of one.
  have hsame : ∀ p, t.products.get? p.id = some p → p.name = product →
      Pools.requireOwned p name = Pools.requireOwned p (product ++ "." ++ name) := by
    rintro p hp rfl
    have hqualified := Pool.qualify_bare_eq_full (h.productName_dotless hp) hne hbare
    simp only [Pools.requireOwned, Pools.qualified, hqualified]
  have hrun : ∀ {β : Type} (k : Product → Pool → Work β),
      (requireProduct product >>= fun p => Pools.requireOwned p name >>= k p).run answer t =
        (requireProduct product >>= fun p =>
          Pools.requireOwned p (product ++ "." ++ name) >>= k p).run answer t := by
    intro β k
    refine run_requireProduct_congr h.numbered fun p hp hname => ?_
    rw [hsame p hp hname]
  constructor
  · intro instances
    rw [Pools.updateInstances, Pools.updateInstances]
    cases Pools.instancesRefusal? instances with
    | some f => rfl
    | none => exact perform_update_congr (hrun _)
  · exact perform_update_congr (hrun _)
  · exact perform_query_congr (run_requireProduct_congr h.numbered hsame)
  · exact perform_query_congr (hrun _)

/-! Whose a pool is. -/

structure Finds (t : Tables) (product name : String) (pool : Pool) : Prop where
  stored : t.pools.get? pool.id = some pool
  owned : ∃ p, t.products.get? pool.productId = some p ∧ p.name = product
  spelled : Pool.qualify product name = .ok pool.name

theorem Reachable.owned_of_spelled (h : t.Reachable) {p : Product} {pool : Pool}
    (hp : t.products.get? p.id = some p) (hpool : t.pools.get? pool.id = some pool)
    (hspelled : Pool.qualify p.name name = .ok pool.name) : pool.productId = p.id := by
  obtain ⟨q, hq, suffix, hne, hname⟩ := h.qualified pool.id pool hpool
  have hfree := h.productName_dotless hq
  have hfull : Pool.Spells q.name pool.name pool.name := ⟨suffix, hne, hname, Or.inl rfl⟩
  have hdotless := h.productName_dotless hp
  have hsame := hfull.owner_eq hfree hdotless ((Pool.qualify_iff hdotless).1 hspelled)
  exact h.named.products _ _ q p hq hp hsame

theorem finds_of_yields (hn : t.Numbered) {p : Product} {pool : Pool} {t₁ t₂ : Tables}
    (hp : Yields answer t (requireProduct product) p t₁)
    (hpool : Yields answer t₁ (Pools.requireOwned p name) pool t₂) :
    t₂ = t ∧ t.Finds product name pool := by
  obtain ⟨rfl, hproduct, rfl⟩ := requireProduct_yields hn hp
  obtain ⟨rfl, hspelled, hstored, howned⟩ := requireOwned_yields hn hpool
  exact ⟨rfl, hstored, ⟨p, by rw [howned, hproduct], rfl⟩, hspelled⟩

theorem Reachable.requireOwned_finds (h : t.Reachable) {p : Product} {pool : Pool}
    (hp : t.products.get? p.id = some p) (hpool : t.pools.get? pool.id = some pool)
    (hspelled : Pool.qualify p.name name = .ok pool.name) :
    Yields answer t (Pools.requireOwned p name) pool t := by
  have hhead : (select t.pools (PoolFilter.admits { name := some pool.name })
      Pool.name).head? = some pool := by
    apply h.numbered.pools.head?_select_of_unique hpool
    · simp [PoolFilter.admits]
    · intro q hq hadm
      have hname : q.name = pool.name := by simpa [PoolFilter.admits] using hadm
      exact Indexed.eq_of_id_eq hpool hq (h.named.pools q.id pool.id q pool hq hpool hname)
  have howned : decide (pool.productId ≠ p.id) = false := by
    simpa using h.owned_of_spelled hp hpool hspelled
  simp only [Pools.requireOwned, Pools.qualified, requirePool, yields_bind, yields_ofExcept,
    mapError_eq_ok, yields_ask, yields_require, yields_refuseIf, yields_pure]
  exact ⟨pool.name, t, ⟨hspelled, rfl⟩, pool, t, ⟨_, t, rfl, hhead, rfl⟩, (), t, ⟨howned, rfl⟩, rfl,
    rfl⟩

theorem Reachable.fetch_iff (h : t.Reachable) {pool : Pool} :
    (t.perform (Pools.fetch product name)).1 = .ok pool ↔ t.Finds product name pool := by
  constructor
  · intro hok
    have hw : Yields answer t (requireProduct product >>= fun p => Pools.requireOwned p name) pool
        ((requireProduct product >>= fun p => Pools.requireOwned p name).run answer t).2 :=
      Prod.ext hok rfl
    obtain ⟨p, _, hp, hpool⟩ := yields_bind.1 hw
    exact (finds_of_yields h.numbered hp hpool).2
  · rintro ⟨hpool, ⟨p, hp, rfl⟩, hspelled⟩
    have hid : p.id = pool.productId := h.numbered.products.own hp
    rw [← hid] at hp
    have hw : Yields answer t (requireProduct p.name >>= fun p => Pools.requireOwned p name) pool t :=
      yields_bind.2 ⟨p, t, requireProduct_finds h.numbered h.named hp,
        h.requireOwned_finds hp hpool hspelled⟩
    rw [Pools.fetch, perform_query_of_yields hw]

theorem updateInstances_finds (hn : t.Numbered) {instances : List Instance} {pool : Pool}
    (hok : (t.perform (Pools.updateInstances product name instances)).1 = .ok pool) :
    ∃ found, t.Finds product name found ∧ pool = { found with instances := instances } := by
  rw [Pools.updateInstances] at hok
  cases hsound : Pools.instancesRefusal? instances with
  | some f =>
    rw [hsound] at hok
    cases hok
  | none =>
    rw [hsound] at hok
    obtain ⟨t', hw⟩ := yields_of_perform_update hok
    simp only [yields_bind, yields_pure] at hw
    obtain ⟨p, _, hp, found, _, hfound, _, _, -, rfl, -⟩ := hw
    exact ⟨found, (finds_of_yields hn hp hfound).2, rfl⟩

theorem delete_finds (hn : t.Numbered)
    (hok : (t.perform (Pools.delete product name)).1 = .ok ()) :
    ∃ found, t.Finds product name found ∧
      (t.perform (Pools.delete product name)).2 = { t with pools := t.pools.erase found.id } := by
  obtain ⟨t', hw⟩ := yields_of_perform_update hok
  rw [Pools.delete, perform_update_of_yields hw]
  simp only [yields_bind, yields_ask, yields_refuseIf] at hw
  obtain ⟨p, _, hp, found, _, hfound, users, _, husers, _, _, ⟨-, rfl⟩, hwrite⟩ := hw
  obtain ⟨rfl, hfinds⟩ := finds_of_yields hn hp hfound
  simp only [Pools.references, yields_bind, yields_ask, yields_pure] at husers
  obtain ⟨_, _, hbfes, _, _, hsubs, -, rfl⟩ := husers
  cases hbfes
  cases hsubs
  obtain ⟨_, -, rfl⟩ := change_ok hwrite
  exact ⟨found, hfinds, rfl⟩

theorem deletable_finds (hn : t.Numbered) {b : Bool}
    (hok : (t.perform (Pools.deletable product name)).1 = .ok b) :
    ∃ found, t.Finds product name found := by
  have hw : Yields answer t (requireProduct product >>= fun p => Pools.requireOwned p name >>=
      fun pool => Pools.references pool >>= fun users => pure users.isEmpty) b _ :=
    Prod.ext hok rfl
  simp only [yields_bind] at hw
  obtain ⟨p, _, hp, found, _, hfound, -⟩ := hw
  exact ⟨found, (finds_of_yields hn hp hfound).2⟩

/-- Under an owner without a dot, and no product has one, full names are canonical. So after any events
a pool may be asked for by its suffix or by its full name, with the same answer and the same tables
afterwards, and every pool that is found under a product's name belongs to that product. -/
theorem run_spellings (events : List Event) :
    (∀ owner, '.' ∉ owner.toList → Pool.Canonical owner) ∧
    (∀ i p, (start.run events).products.get? i = some p → '.' ∉ p.name.toList) ∧
    (∀ product name, name ≠ "" → '.' ∉ name.toList →
      (start.run events).AnswersAlike product name (product ++ "." ++ name)) ∧
    ∀ product name,
      (∀ pool, ((start.run events).perform (Pools.fetch product name)).1 = .ok pool ↔
        (start.run events).Finds product name pool) ∧
      (∀ instances pool,
        ((start.run events).perform (Pools.updateInstances product name instances)).1 = .ok pool →
          ∃ found, (start.run events).Finds product name found ∧
            pool = { found with instances := instances }) ∧
      (((start.run events).perform (Pools.delete product name)).1 = .ok () →
        ∃ found, (start.run events).Finds product name found ∧
          ((start.run events).perform (Pools.delete product name)).2 =
            { start.run events with pools := (start.run events).pools.erase found.id }) ∧
      ∀ b, ((start.run events).perform (Pools.deletable product name)).1 = .ok b →
        ∃ found, (start.run events).Finds product name found := by
  have h : (start.run events).Reachable := ⟨events, rfl⟩
  refine ⟨fun _ => Pool.canonical_of_dotless, fun i p => h.productName_dotless,
    fun product name => h.answersAlike product, fun product name => ⟨fun pool => h.fetch_iff, ?_⟩⟩
  exact ⟨fun instances pool => updateInstances_finds h.numbered, delete_finds h.numbered,
    fun b => deletable_finds h.numbered⟩

def pooledShop : List Event :=
  [.call {} ⟨0⟩ (.createProduct ⟨"shop", "", [], []⟩),
    .call {} ⟨0⟩ (.createPool "shop" ⟨"web", .static, []⟩),
    .call {} ⟨0⟩ (.createPool "shop" ⟨"shop.eu.web", .registry, []⟩)]

theorem pooledShop_spellings :
    '.' ∉ "shop".toList ∧ "web" ≠ "" ∧ '.' ∉ "web".toList ∧ Pool.Canonical "shop" ∧
      (start.run pooledShop).AnswersAlike "shop" "web" "shop.web" ∧
      (start.run pooledShop).Finds "shop" "web" ⟨⟨3⟩, "shop.web", ⟨2⟩, .product, .static, []⟩ ∧
      (start.run pooledShop).Finds "shop" "shop.eu.web"
        ⟨⟨4⟩, "shop.eu.web", ⟨2⟩, .product, .registry, []⟩ := by
  have howner : '.' ∉ "shop".toList := by decide
  have hbare : '.' ∉ "web".toList := by decide
  have hne : "web" ≠ "" := by decide
  have hweb : ((start.run pooledShop).perform (Pools.fetch "shop" "web")).1 =
      .ok ⟨⟨3⟩, "shop.web", ⟨2⟩, .product, .static, []⟩ := by decide +kernel
  have hdotted : ((start.run pooledShop).perform (Pools.fetch "shop" "shop.eu.web")).1 =
      .ok ⟨⟨4⟩, "shop.eu.web", ⟨2⟩, .product, .registry, []⟩ := by decide +kernel
  obtain ⟨hcanonical, -, halike, hfinds⟩ := run_spellings pooledShop
  exact ⟨howner, hne, hbare, hcanonical "shop" howner, halike "shop" "web" hne hbare,
    ((hfinds "shop" "web").1 _).1 hweb, ((hfinds "shop" "shop.eu.web").1 _).1 hdotted⟩

end Store.Tables
end FleetControl
