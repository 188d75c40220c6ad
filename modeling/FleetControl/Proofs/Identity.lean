import FleetControl.Proofs.Domains
import FleetControl.Proofs.References
import FleetControl.Proofs.Splitting

/-!
Identity. One counter numbers the records of all tables, so an id in use names one thing, whatever its
kind, and never comes to name another. Of the names, those of pools also tell whose they are.
-/

namespace FleetControl

namespace Kind

deriving instance DecidableEq for Kind

def all : List Kind := [product, pool, bfeCluster, subCluster, cluster, domain, certificate]

theorem mem_all (k : Kind) : k ∈ all := by cases k <;> decide

theorem nodup_all : all.Nodup := by decide

end Kind

/-- What a record is known by, which stays with it for as long as it is stored. -/
structure Entity where
  kind : Kind
  id : Int
  owner : Option ProductId
  name : String

def Entity.key (e : Entity) : Kind × String × Option ProductId :=
  (e.kind, e.name, if e.kind = .subCluster then e.owner else none)

def Product.entity (p : Product) : Entity := ⟨.product, p.id.val, none, p.name⟩
def Pool.entity (q : Pool) : Entity := ⟨.pool, q.id.val, some q.productId, q.name⟩
def BfeCluster.entity (b : BfeCluster) : Entity := ⟨.bfeCluster, b.id.val, none, b.name⟩
def SubCluster.Record.entity (s : SubCluster.Record) : Entity :=
  ⟨.subCluster, s.id.val, some s.productId, s.name⟩
def Cluster.Record.entity (r : Cluster.Record) : Entity :=
  ⟨.cluster, r.id.val, some r.productId, r.name⟩
def Domain.entity (d : Domain) : Entity := ⟨.domain, d.id.val, some d.productId, d.name⟩
def Certificate.entity (c : Certificate) : Entity := ⟨.certificate, c.id.val, none, c.name⟩

namespace Pool

theorem qualify_ok {owner name full : String} (h : qualify owner name = .ok full) :
    ∃ suffix, suffix ≠ "" ∧ full = owner ++ "." ++ suffix := by
  rw [qualify] at h
  split at h
  · cases h
  · rename_i hnonempty
    split at h
    · cases h
      exact ⟨name, by simpa using hnonempty, rfl⟩
    · rename_i before after hsplit
      split at h
      · cases h
      · rename_i hbefore
        split at h
        · cases h
        · rename_i hafter
          cases h
          refine ⟨String.ofList after, by simpa using hafter, ?_⟩
          apply String.toList_injective
          rw [Text.append_of_splitOnce hsplit, not_not.1 hbefore]
          simp

end Pool

def Call.creates : Call → Bool
  | createProduct _ | createBfeCluster _ | createPool .. | createSubCluster .. | createCluster ..
  | createDomain .. | createCertificate _ => true
  | _ => false

namespace Store

def Event.creates : Event → Bool
  | .call _ _ c => c.creates
  | .publish .. => false

section

variable {kind : Kind} {α : Type} {table : SortedMap (Id kind) α} {label : α → Entity}

theorem map_get?_erase (label : α → Entity) (i j : Id kind) :
    ((table.erase i).get? j).map label = none ∨
      ((table.erase i).get? j).map label = (table.get? j).map label := by
  rw [SortedMap.get?_erase]
  split
  · exact Or.inl rfl
  · exact Or.inr rfl

theorem map_get?_insert_ne (label : α → Entity) {n m : Int} (hne : m ≠ n) (a : α) :
    ((table.insert ⟨n⟩ a).get? ⟨m⟩).map label = (table.get? ⟨m⟩).map label := by
  rw [SortedMap.get?_insert_ne _ _ fun h => hne (congrArg Id.val h)]

theorem map_get?_replace {i : Id kind} {a b : α} (stored : table.get? i = some a)
    (same : label b = label a) (j : Id kind) :
    ((table.insert i b).get? j).map label = (table.get? j).map label := by
  rw [SortedMap.get?_insert]
  split
  · rename_i hj
    rw [hj, stored, Option.map_some, Option.map_some, same]
  · rfl

theorem map_get?_map {f : Id kind → α → α} (same : ∀ i a, label (f i a) = label a) (j : Id kind) :
    ((table.map f).get? j).map label = (table.get? j).map label := by
  rw [SortedMap.get?_map]
  cases table.get? j with
  | none => rfl
  | some a => exact congrArg some (same j a)

theorem Distinct.entity_eq {γ : Type} {key : α → γ} (h : Distinct table key)
    (keyed : ∀ x y, (label x).key = (label y).key → key x = key y) {n m : Int} {a b : Entity}
    (ha : (table.get? ⟨n⟩).map label = some a) (hb : (table.get? ⟨m⟩).map label = some b)
    (hkey : a.key = b.key) : a = b := by
  obtain ⟨x, hx, rfl⟩ := Option.map_eq_some_iff.1 ha
  obtain ⟨y, hy, rfl⟩ := Option.map_eq_some_iff.1 hb
  rw [h _ _ x y hx hy (keyed x y hkey), hy] at hx
  cases hx
  rfl

namespace Indexed

variable {bound : Int} {id : α → Id kind}

theorem mem_map_values (h : Indexed bound id table) (own : ∀ a, (label a).id = (id a).val)
    {e : Entity} : e ∈ table.values.map label ↔ (table.get? ⟨e.id⟩).map label = some e := by
  rw [List.mem_map, Option.map_eq_some_iff]
  constructor
  · rintro ⟨a, ha, rfl⟩
    rw [own]
    exact ⟨a, h.get?_of_mem ha, rfl⟩
  · rintro ⟨a, ha, hlabel⟩
    exact ⟨a, SortedMap.mem_values.2 ⟨_, ha⟩, hlabel⟩

theorem nodup_map_values (h : Indexed bound id table) (own : ∀ a, (label a).id = (id a).val) :
    ((table.values.map label).map Entity.id).Nodup := by
  have hids : (table.values.map label).map Entity.id = (table.values.map id).map Id.val := by
    rw [List.map_map, List.map_map]
    exact List.map_congr_left fun a _ => own a
  rw [hids, h.map_values]
  exact table.nodup_keys.map fun i j hij => by cases i; cases j; cases hij; rfl

theorem lt_of_map_get? (h : Indexed bound id table) {n : Int} {e : Entity}
    (he : (table.get? ⟨n⟩).map label = some e) : n < bound := by
  obtain ⟨a, ha, -⟩ := Option.map_eq_some_iff.1 he
  exact h.below ha

end Indexed

end

namespace Tables

def entity? (t : Tables) (n : Int) : Kind → Option Entity
  | .product => (t.products.get? ⟨n⟩).map Product.entity
  | .pool => (t.pools.get? ⟨n⟩).map Pool.entity
  | .bfeCluster => (t.bfeClusters.get? ⟨n⟩).map BfeCluster.entity
  | .subCluster => (t.subClusters.get? ⟨n⟩).map SubCluster.Record.entity
  | .cluster => (t.clusters.get? ⟨n⟩).map Cluster.Record.entity
  | .domain => (t.domains.get? ⟨n⟩).map Domain.entity
  | .certificate => (t.certificates.get? ⟨n⟩).map Certificate.entity

def entitiesOf (t : Tables) : Kind → List Entity
  | .product => t.products.values.map Product.entity
  | .pool => t.pools.values.map Pool.entity
  | .bfeCluster => t.bfeClusters.values.map BfeCluster.entity
  | .subCluster => t.subClusters.values.map SubCluster.Record.entity
  | .cluster => t.clusters.values.map Cluster.Record.entity
  | .domain => t.domains.values.map Domain.entity
  | .certificate => t.certificates.values.map Certificate.entity

def entities (t : Tables) : List Entity := Kind.all.flatMap t.entitiesOf

variable {t t' : Tables} {ignoreReadiness : Bool} {c : Call} {n : Int} {k k' : Kind} {a b e : Entity}

theorem kind_of_entity? (h : t.entity? n k = some e) : e.kind = k := by
  cases k <;> obtain ⟨_, -, rfl⟩ := Option.map_eq_some_iff.1 h <;> rfl

theorem Numbered.entity?_lt (hn : t.Numbered) (h : t.entity? n k = some e) : n < t.nextId := by
  cases k with
  | product => exact hn.products.lt_of_map_get? h
  | pool => exact hn.pools.lt_of_map_get? h
  | bfeCluster => exact hn.bfeClusters.lt_of_map_get? h
  | subCluster => exact hn.subClusters.lt_of_map_get? h
  | cluster => exact hn.clusters.lt_of_map_get? h
  | domain => exact hn.domains.lt_of_map_get? h
  | certificate => exact hn.certificates.lt_of_map_get? h

theorem Numbered.mem_entitiesOf (hn : t.Numbered) :
    e ∈ t.entitiesOf k ↔ t.entity? e.id k = some e := by
  cases k with
  | product => exact hn.products.mem_map_values fun _ => rfl
  | pool => exact hn.pools.mem_map_values fun _ => rfl
  | bfeCluster => exact hn.bfeClusters.mem_map_values fun _ => rfl
  | subCluster => exact hn.subClusters.mem_map_values fun _ => rfl
  | cluster => exact hn.clusters.mem_map_values fun _ => rfl
  | domain => exact hn.domains.mem_map_values fun _ => rfl
  | certificate => exact hn.certificates.mem_map_values fun _ => rfl

theorem Numbered.nodup_entitiesOf (hn : t.Numbered) (k : Kind) :
    ((t.entitiesOf k).map Entity.id).Nodup := by
  cases k with
  | product => exact hn.products.nodup_map_values fun _ => rfl
  | pool => exact hn.pools.nodup_map_values fun _ => rfl
  | bfeCluster => exact hn.bfeClusters.nodup_map_values fun _ => rfl
  | subCluster => exact hn.subClusters.nodup_map_values fun _ => rfl
  | cluster => exact hn.clusters.nodup_map_values fun _ => rfl
  | domain => exact hn.domains.nodup_map_values fun _ => rfl
  | certificate => exact hn.certificates.nodup_map_values fun _ => rfl

theorem Numbered.mem_entities (hn : t.Numbered) :
    e ∈ t.entities ↔ t.entity? e.id e.kind = some e := by
  rw [entities, List.mem_flatMap]
  constructor
  · rintro ⟨k, -, he⟩
    have hget := hn.mem_entitiesOf.1 he
    rw [kind_of_entity? hget, hget]
  · intro he
    exact ⟨e.kind, Kind.mem_all _, hn.mem_entitiesOf.2 he⟩

/-- What a call can do to the entities: some may go, or one may come and take the next id. -/
inductive Turnover (t t' : Tables) : Prop where
  | less (next : t'.nextId = t.nextId)
      (rest : ∀ n k, t'.entity? n k = none ∨ t'.entity? n k = t.entity? n k)
  | more (new : Kind) (next : t'.nextId = t.nextId + 1)
      (others : ∀ n k, k ≠ new → t'.entity? n k = t.entity? n k)
      (older : ∀ n, n ≠ t.nextId → t'.entity? n new = t.entity? n new)

theorem entity?_mount (t : Tables) (cluster : Option ClusterId) (ids : List SubClusterId) (n : Int) :
    (t.mount cluster ids).entity? n .subCluster = t.entity? n .subCluster := by
  unfold mount
  apply map_get?_map
  intro i s
  split <;> rfl

theorem Turnover.of_effect (he : Effect ignoreReadiness t c t') : Turnover t t' := by
  cases he with
  | productCreated =>
    refine .more .product rfl (fun n k hk => ?_) fun n hne => map_get?_insert_ne _ hne _
    cases k <;> first | rfl | exact absurd rfl hk
  | poolCreated =>
    refine .more .pool rfl (fun n k hk => ?_) fun n hne => map_get?_insert_ne _ hne _
    cases k <;> first | rfl | exact absurd rfl hk
  | bfeClusterCreated =>
    refine .more .bfeCluster rfl (fun n k hk => ?_) fun n hne => map_get?_insert_ne _ hne _
    cases k <;> first | rfl | exact absurd rfl hk
  | subClusterCreated =>
    refine .more .subCluster rfl (fun n k hk => ?_) fun n hne => map_get?_insert_ne _ hne _
    cases k <;> first | rfl | exact absurd rfl hk
  | domainCreated =>
    refine .more .domain rfl (fun n k hk => ?_) fun n hne => map_get?_insert_ne _ hne _
    cases k <;> first | rfl | exact absurd rfl hk
  | clusterCreated =>
    refine .more .cluster rfl (fun n k hk => ?_) fun n hne => map_get?_insert_ne _ hne _
    cases k with
    | subCluster => exact entity?_mount t _ _ n
    | cluster => exact absurd rfl hk
    | _ => rfl
  | certificateCreated _ _ marked =>
    refine .more .certificate rfl (fun n k hk => ?_) fun n hne => ?_
    · cases k <;> first | rfl | exact absurd rfl hk
    · subst marked
      unfold entity?
      dsimp only
      split
      · rw [map_get?_map (by exact fun _ _ => rfl), map_get?_insert_ne _ hne]
      · rw [map_get?_insert_ne _ hne]
  | productDeleted | poolDeleted | bfeClusterDeleted | subClusterDeleted | domainDeleted
  | certificateDeleted =>
    refine .less rfl fun n k => ?_
    cases k <;> first | exact Or.inr rfl | exact map_get?_erase _ _ _
  | clusterDeleted =>
    refine .less rfl fun n k => ?_
    cases k with
    | cluster => exact map_get?_erase _ _ _
    | subCluster => exact Or.inr (entity?_mount t _ _ n)
    | _ => exact Or.inr rfl
  | productUpdated _ stored | instancesUpdated _ _ _ stored | subClusterUpdated _ _ stored
  | clusterUpdated _ _ _ stored =>
    refine .less rfl fun n k => Or.inr ?_
    cases k <;> first | rfl | exact map_get?_replace stored (by exact rfl) _
  | rebound =>
    refine .less rfl fun n k => Or.inr ?_
    cases k with
    | subCluster => exact (entity?_mount _ _ _ n).trans (entity?_mount t _ _ n)
    | _ => rfl
  | defaultCertificateSet =>
    refine .less rfl fun n k => Or.inr ?_
    cases k with
    | certificate => exact map_get?_map (by exact fun _ _ => rfl) _
    | _ => rfl
  | idle | rulesReplaced | exported => exact .less rfl fun n k => Or.inr rfl

theorem Turnover.older (h : Turnover t t') (hlt : n < t.nextId) (k : Kind) :
    t.nextId ≤ t'.nextId ∧ (t'.entity? n k = none ∨ t'.entity? n k = t.entity? n k) := by
  cases h with
  | less next rest => exact ⟨by omega, rest n k⟩
  | more new next others older =>
    refine ⟨by omega, Or.inr ?_⟩
    by_cases hk : k = new
    · rw [hk, older n (by omega)]
    · exact others n k hk

theorem Numbered.older_run (hn : t.Numbered) (events : List Event) (hlt : n < t.nextId) (k : Kind) :
    t.nextId ≤ (t.run events).nextId ∧
      ((t.run events).entity? n k = none ∨ (t.run events).entity? n k = t.entity? n k) := by
  induction events generalizing t with
  | nil => exact ⟨Int.le_refl _, Or.inr rfl⟩
  | cons e events ih =>
    have hturn : Turnover t (t.after e) := hn.after_of_effect e Turnover.of_effect
    obtain ⟨hle, hstep⟩ := hturn.older hlt k
    obtain ⟨hmore, hrest⟩ := ih (hn.after_of_effect e hn.effect) (Int.lt_of_lt_of_le hlt hle)
    refine ⟨hle.trans hmore, ?_⟩
    rcases hrest with hgone | hsame
    · exact Or.inl hgone
    · rcases hstep with hgone | hkept
      · exact Or.inl (hsame.trans hgone)
      · exact Or.inr (hsame.trans hkept)

def Sole (t : Tables) : Prop :=
  ∀ n k k' a b, t.entity? n k = some a → t.entity? n k' = some b → k = k'

theorem Sole.turnover (h : Sole t) (hn : t.Numbered) (hturn : Turnover t t') : Sole t' := by
  intro n k k' a b ha hb
  cases hturn with
  | less _ rest =>
    have hold : ∀ {k e}, t'.entity? n k = some e → t.entity? n k = some e := by
      intro k e he
      rcases rest n k with hgone | hkept
      · rw [hgone] at he
        cases he
      · rw [← hkept, he]
    exact h n k k' a b (hold ha) (hold hb)
  | more new _ others older =>
    by_cases hnew : n = t.nextId
    · -- Nothing had that id before, so that both are the new entity.
      have hkind : ∀ {k e}, t'.entity? n k = some e → k = new := by
        intro k e he
        by_contra hk
        rw [others n k hk] at he
        have hlt := hn.entity?_lt he
        omega
      rw [hkind ha, hkind hb]
    · have hold : ∀ k, t'.entity? n k = t.entity? n k := by
        intro k
        by_cases hk : k = new
        · rw [hk, older n hnew]
        · exact others n k hk
      rw [hold] at ha hb
      exact h n k k' a b ha hb

theorem sole_start : Sole start := by
  intro n k k' a b ha hb
  cases k <;> cases k' <;> first | rfl | simp [start, entity?] at ha hb

theorem Reachable.sole (h : t.Reachable) : Sole t :=
  h.invariant sole_start fun hr hs he => hs.turnover hr.numbered (.of_effect he)

theorem Sole.nodup (h : Sole t) (hn : t.Numbered) : (t.entities.map Entity.id).Nodup := by
  rw [entities, List.map_flatMap, List.nodup_flatMap]
  refine ⟨fun k _ => hn.nodup_entitiesOf k, ?_⟩
  refine Kind.nodup_all.imp fun {k k'} hne => ?_
  intro n hk hk'
  obtain ⟨a, ha, rfl⟩ := List.mem_map.1 hk
  obtain ⟨b, hb, hid⟩ := List.mem_map.1 hk'
  have hb := hn.mem_entitiesOf.1 hb
  rw [hid] at hb
  exact hne (h a.id k k' a b (hn.mem_entitiesOf.1 ha) hb)

/-- What has an id in the end that was in use before has had it all the time. -/
theorem Reachable.kept (h : t.Reachable) {seen more : List Event} (hseen : seen <+: more)
    (ha : t.entity? n k = some a) (hb : (t.run more).entity? n k' = some b) :
    b = a ∧ (t.run seen).entity? n k = some a := by
  obtain ⟨rest, rfl⟩ := hseen
  have hlt := h.numbered.entity?_lt ha
  obtain ⟨hle, hmiddle⟩ := h.numbered.older_run seen hlt k'
  rw [run_append] at hb
  obtain ⟨-, hlast⟩ := (h.numbered.run seen).older_run rest (Int.lt_of_lt_of_le hlt hle) k'
  have hseen : (t.run seen).entity? n k' = some b := by
    rcases hlast with hgone | hkept
    · rw [hgone] at hb
      cases hb
    · rw [← hkept, hb]
  have hfirst : t.entity? n k' = some b := by
    rcases hmiddle with hgone | hkept
    · rw [hgone] at hseen
      cases hseen
    · rw [← hkept, hseen]
  obtain rfl := h.sole n k k' a b ha hfirst
  rw [ha] at hfirst
  cases hfirst
  exact ⟨rfl, hseen⟩

/-! Names. -/

theorem Reachable.eq_of_key (h : t.Reachable) {m : Int} (ha : t.entity? n k = some a)
    (hb : t.entity? m k = some b) (hkey : a.key = b.key) : a = b := by
  have hname : ∀ a b : Entity, a.key = b.key → a.name = b.name :=
    fun a b hab => congrArg (fun key => key.2.1) hab
  cases k with
  | product => exact h.named.products.entity_eq (fun _ _ => hname _ _) ha hb hkey
  | pool => exact h.named.pools.entity_eq (fun _ _ => hname _ _) ha hb hkey
  | bfeCluster => exact h.named.bfeClusters.entity_eq (fun _ _ => hname _ _) ha hb hkey
  | subCluster =>
    refine h.named.subClusters.entity_eq (fun x y hxy => ?_) ha hb hkey
    have howner : some x.productId = some y.productId := congrArg (fun key => key.2.2) hxy
    exact Prod.ext (Option.some.inj howner) (hname _ _ hxy)
  | cluster => exact h.named.clusters.entity_eq (fun _ _ => hname _ _) ha hb hkey
  | domain => exact h.exclusive.distinct.entity_eq (fun _ _ => hname _ _) ha hb hkey
  | certificate => exact h.named.certificates.entity_eq (fun _ _ => hname _ _) ha hb hkey

theorem Reachable.nodup_keys (h : t.Reachable) : (t.entities.map Entity.key).Nodup := by
  refine (List.Nodup.of_map _ (h.sole.nodup h.numbered)).map_on fun a ha b hb hkey => ?_
  have ha := h.numbered.mem_entities.1 ha
  have hb := h.numbered.mem_entities.1 hb
  have hkind : b.kind = a.kind := (congrArg Prod.fst hkey).symm
  rw [hkind] at hb
  exact h.eq_of_key ha hb hkey

def Qualified (t : Tables) : Prop :=
  ∀ i q, t.pools.get? i = some q → ∃ p, t.products.get? q.productId = some p ∧
    ∃ suffix, suffix ≠ "" ∧ q.name = p.name ++ "." ++ suffix

theorem qualified_start : Qualified start := by
  intro i q hq
  simp [start] at hq

theorem Qualified.effect (h : Qualified t) (hn : t.Numbered) (he : Effect ignoreReadiness t c t') :
    Qualified t' := by
  intro i q hq
  cases he with
  | productCreated =>
    obtain ⟨p, hp, hname⟩ := h i q hq
    exact ⟨p, hn.products.get?_insert_next hp _, hname⟩
  | @productUpdated p change _ stored =>
    obtain ⟨p', hp', hname⟩ := h i q hq
    dsimp only
    rw [SortedMap.get?_insert]
    split
    · rename_i howner
      rw [howner, stored] at hp'
      cases hp'
      exact ⟨change.apply p, rfl, hname⟩
    · exact ⟨p', hp', hname⟩
  | productDeleted _ _ _ _ noPools =>
    obtain ⟨p, hp, hname⟩ := h i q hq
    exact ⟨p, by rw [SortedMap.get?_erase, if_neg (noPools hq), hp], hname⟩
  | @poolCreated p proposal name _ stored qualified =>
    rcases SortedMap.get?_insert_eq_some.1 hq with ⟨-, rfl⟩ | ⟨-, hq⟩
    · exact ⟨p, stored, Pool.qualify_ok qualified⟩
    · exact h i q hq
  | @instancesUpdated _ pool _ _ _ _ _ stored =>
    rcases SortedMap.get?_insert_eq_some.1 hq with ⟨-, rfl⟩ | ⟨-, hq⟩
    · exact h pool.id pool stored
    · exact h i q hq
  | poolDeleted => exact h i q (SortedMap.get?_erase_eq_some.1 hq).2
  | _ => exact h i q hq

theorem Reachable.qualified (h : t.Reachable) : Qualified t :=
  h.invariant qualified_start fun hr hq he => hq.effect hr.numbered he

theorem Reachable.builtin (h : t.Reachable) :
    t.products.get? Product.builtinId = some Product.builtin := by
  refine h.invariant (P := fun t => t.products.get? Product.builtinId = some Product.builtin)
    (SortedMap.get?_insert_self _ _ _) fun {_ t c t'} hr hb he => ?_
  have hordinary : ∀ {p : Product}, p.isBuiltin = false → Product.builtinId ≠ p.id := by
    rintro p hp heq
    simp [Product.isBuiltin, heq] at hp
  cases he with
  | productCreated => exact hr.numbered.products.get?_insert_next hb _
  | productUpdated _ _ ordinary => exact (SortedMap.get?_insert_ne _ _ (hordinary ordinary)).trans hb
  | productDeleted _ ordinary =>
    dsimp only
    rw [SortedMap.get?_erase, if_neg (hordinary ordinary), hb]
  | _ => exact hb

/-! How many ids there can be. -/

theorem nextId_effect (he : Effect ignoreReadiness t c t') :
    t'.nextId ≤ t.nextId + if c.creates then 1 else 0 := by
  cases he with
  | idle => split <;> omega
  | _ => simp [Call.creates]

theorem Numbered.nextId_after (hn : t.Numbered) (e : Event) :
    (t.after e).nextId ≤ t.nextId + if e.creates then 1 else 0 := by
  cases e with
  | call settings now c => exact nextId_effect (call_effect hn settings now c)
  | publish now p => exact nextId_effect (publish_effect now p t)

theorem Numbered.nextId_run (hn : t.Numbered) (events : List Event) :
    (t.run events).nextId ≤ t.nextId + events.countP Event.creates := by
  induction events generalizing t with
  | nil =>
    change t.nextId ≤ _
    simp
  | cons e events ih =>
    have hrest := ih (hn.after_of_effect e hn.effect)
    have hfirst := hn.nextId_after e
    rw [List.countP_cons]
    change ((t.after e).run events).nextId ≤ _
    push_cast
    omega

/-- After any events: no two things have the same id, and none has one that is still to come; no two
have the same name, sub-clusters of different products apart; every pool is named after its product;
the built-in product is as it was; and whatever happens then, an id in use comes to name nothing
else, not even after what it names is gone. -/
theorem run_identity (events : List Event) :
    ((start.run events).entities.map Entity.id).Nodup ∧
    (∀ a ∈ (start.run events).entities, a.id < (start.run events).nextId) ∧
    (start.run events).nextId ≤ 2 + events.countP Event.creates ∧
    ((start.run events).entities.map Entity.key).Nodup ∧
    (start.run events).Qualified ∧
    (start.run events).products.get? Product.builtinId = some Product.builtin ∧
    ∀ more, ∀ a ∈ (start.run events).entities, ∀ b ∈ (start.run (events ++ more)).entities,
      b.id = a.id → b = a ∧ ∀ seen, seen <+: more → a ∈ (start.run (events ++ seen)).entities := by
  have hreach : ∀ events, (start.run events).Reachable := fun events => ⟨events, rfl⟩
  have h := hreach events
  refine ⟨h.sole.nodup h.numbered, fun a ha => h.numbered.entity?_lt (h.numbered.mem_entities.1 ha),
    numbered_start.nextId_run events, h.nodup_keys, h.qualified, h.builtin, ?_⟩
  intro more a ha b hb hid
  have ha := h.numbered.mem_entities.1 ha
  have hb := (hreach (events ++ more)).numbered.mem_entities.1 hb
  rw [hid, run_append] at hb
  refine ⟨(h.kept List.prefix_rfl ha hb).1, fun seen hseen => ?_⟩
  rw [(hreach (events ++ seen)).numbered.mem_entities, run_append]
  exact (h.kept hseen ha hb).2

end Tables
end Store
end FleetControl
