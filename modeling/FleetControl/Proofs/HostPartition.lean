import FleetControl.Proofs.Generated

/-!
The host table as a partition. Its lists, taken together, are the registered domains, each of them once,
and whatever host is asked for falls under at most one of them.
-/

namespace FleetControl

open Store Store.Tables Hostname Export

namespace Files

variable {t : Tables} {f : HostTable} {defaultProduct : Option String} {product host : String}

def HostTable.listed (f : HostTable) : List String := f.hosts.values.flatten

/-- The table divides the domains among the products that own them. Strings are ordered by code points,
which is how their bytes are ordered too. -/
structure Partitions (t : Tables) (f : HostTable) : Prop where
  once : f.listed.Perm (t.domains.values.map Domain.name)
  distinct : f.listed.Nodup
  owned : ∀ product host,
    (∃ l, f.hosts.get? product = some l ∧ host ∈ l) ↔ OwnsHost t product host
  increasing : ∀ product l, f.hosts.get? product = some l → l.Pairwise (· < ·)
  owners : ∀ product, product ∈ f.hosts.keys ↔ ∃ host, OwnsHost t product host
  tags : f.hostTags.entries = f.hosts.keys.map fun product => (product, [product])
  exclusive : ∀ host, ∀ a ∈ f.listed, ∀ b ∈ f.listed,
    covers a host = true → covers b host = true → a = b

/-! Owners of hosts. -/

theorem OwnsHost.unique (h : Consistent t) {other : String} (hp : OwnsHost t product host)
    (hq : OwnsHost t other host) : product = other := by
  obtain ⟨i, d, hd, hname, hp⟩ := hp
  obtain ⟨j, e, he, rfl, hq⟩ := hq
  obtain rfl := h.exclusive.eq_of_name hd he hname
  rw [hd] at he
  cases he
  exact hp.unique hq

theorem exists_ownsHost_iff (h : Consistent t) :
    (∃ product, OwnsHost t product host) ↔ host ∈ t.domains.values.map Domain.name := by
  simp only [List.mem_map, SortedMap.mem_values]
  constructor
  · rintro ⟨product, i, d, hd, hname, -⟩
    exact ⟨d, ⟨i, hd⟩, hname⟩
  · rintro ⟨d, ⟨i, hd⟩, hname⟩
    obtain ⟨product, hproduct⟩ := isNamed_of_contains (h.intact.grounded.domains i d hd)
    exact ⟨product, i, d, hd, hname, hproduct⟩

/-! What a table that shows the hosts lists. -/

theorem HostTable.mem_listed :
    host ∈ f.listed ↔ ∃ product l, f.hosts.get? product = some l ∧ host ∈ l := by
  rw [listed, List.mem_flatten]
  constructor
  · rintro ⟨l, hl, hhost⟩
    obtain ⟨product, hl⟩ := SortedMap.mem_values.1 hl
    exact ⟨product, l, hl, hhost⟩
  · rintro ⟨product, l, hl, hhost⟩
    exact ⟨l, SortedMap.mem_values.2 ⟨product, hl⟩, hhost⟩

namespace ShowsHosts

theorem owned_iff (hf : ShowsHosts defaultProduct t f) (h : Consistent t) :
    (∃ l, f.hosts.get? product = some l ∧ host ∈ l) ↔ OwnsHost t product host := by
  constructor
  · rintro ⟨l, hl, hhost⟩
    exact (((hf.hosts product l).1 hl).2.2.2 host).1 hhost
  · intro howns
    obtain ⟨hsorted, hnodup, hmem⟩ := hostsOf_lists h product
    have hhost := (hmem host).2 howns
    exact ⟨_, (hf.hosts product _).2 ⟨List.ne_nil_of_mem hhost, hsorted, hnodup, hmem⟩, hhost⟩

theorem increasing (hf : ShowsHosts defaultProduct t f) {l : List String}
    (hl : f.hosts.get? product = some l) : l.Pairwise (· < ·) := by
  obtain ⟨-, hsorted, hnodup, -⟩ := (hf.hosts product l).1 hl
  exact (hsorted.and hnodup).imp fun hab => lt_of_le_of_ne hab.1 hab.2

theorem mem_keys_iff (hf : ShowsHosts defaultProduct t f) (h : Consistent t) :
    product ∈ f.hosts.keys ↔ ∃ host, OwnsHost t product host := by
  rw [SortedMap.mem_keys]
  constructor
  · rintro ⟨l, hl⟩
    obtain ⟨hne, -, -, hmem⟩ := (hf.hosts product l).1 hl
    obtain ⟨host, hhost⟩ := List.exists_mem_of_ne_nil l hne
    exact ⟨host, (hmem host).1 hhost⟩
  · rintro ⟨host, howns⟩
    obtain ⟨l, hl, -⟩ := (hf.owned_iff h).2 howns
    exact ⟨l, hl⟩

theorem mem_listed_iff (hf : ShowsHosts defaultProduct t f) (h : Consistent t) :
    host ∈ f.listed ↔ host ∈ t.domains.values.map Domain.name := by
  rw [HostTable.mem_listed, ← exists_ownsHost_iff h]
  exact exists_congr fun _ => hf.owned_iff h

theorem nodup_listed (hf : ShowsHosts defaultProduct t f) (h : Consistent t) : f.listed.Nodup := by
  have hget : ∀ e ∈ f.hosts.entries, f.hosts.get? e.1 = some e.2 :=
    fun e he => SortedMap.mem_entries.1 he
  rw [HostTable.listed, SortedMap.values, List.nodup_flatten, List.forall_mem_map, List.pairwise_map]
  constructor
  · intro e he
    exact ((hf.hosts e.1 e.2).1 (hget e he)).2.2.1
  · have hkeys : f.hosts.entries.Pairwise fun e e' => e.1 ≠ e'.1 :=
      List.pairwise_map.1 f.hosts.nodup_keys
    refine hkeys.imp_of_mem fun {e e'} he he' hne host hhost hhost' => hne ?_
    have howns := (hf.owned_iff h).1 ⟨e.2, hget e he, hhost⟩
    exact howns.unique h ((hf.owned_iff h).1 ⟨e'.2, hget e' he', hhost'⟩)

theorem eq_of_covers (hf : ShowsHosts defaultProduct t f) (h : Consistent t) {a b : String}
    (ha : a ∈ f.listed) (hb : b ∈ f.listed) (hca : covers a host = true)
    (hcb : covers b host = true) : a = b := by
  rw [hf.mem_listed_iff h] at ha hb
  obtain ⟨d, hd, rfl⟩ := List.mem_map.1 ha
  obtain ⟨e, he, rfl⟩ := List.mem_map.1 hb
  obtain ⟨i, hd⟩ := SortedMap.mem_values.1 hd
  obtain ⟨j, he⟩ := SortedMap.mem_values.1 he
  obtain rfl := h.exclusive.eq_of_covers hd he hca hcb
  rw [hd] at he
  cases he
  rfl

theorem partitions (hf : ShowsHosts defaultProduct t f) (h : Consistent t) : Partitions t f where
  once := by
    rw [List.perm_ext_iff_of_nodup (hf.nodup_listed h) h.exclusive.distinct.nodup_values]
    exact fun host => hf.mem_listed_iff h
  distinct := hf.nodup_listed h
  owned := fun _ _ => hf.owned_iff h
  increasing := fun _ _ => hf.increasing
  owners := fun _ => hf.mem_keys_iff h
  tags := by
    rw [hf.hostTags, SortedMap.keys, List.map_map]
    rfl
  exclusive := fun _ _ ha _ hb => hf.eq_of_covers h ha hb

end ShowsHosts
end Files

namespace Store.Tables

open Files

/-- After any events the host table can be generated, unless a default product is configured and does
not exist, and it is a partition of the domains. -/
theorem run_hosts (events : List Event) (defaultProduct : Option String) :
    (∀ p, defaultProduct = some p → p ∉ tenants (start.run events) →
      Topic.hostTable.generated defaultProduct (start.run events) = .error (.notExist "Product" p)) ∧
    ((∀ p, defaultProduct = some p → p ∈ tenants (start.run events)) →
      ∃ f, Topic.hostTable.generated defaultProduct (start.run events) = .ok f ∧
        f.version = "" ∧ f.defaultProduct = defaultProduct ∧ Partitions (start.run events) f) := by
  have h : (start.run events).Consistent := Reachable.consistent ⟨events, rfl⟩
  constructor
  · rintro p rfl hp
    have hmissing : Topic.hostTable.missing? (some p) (start.run events) =
        some (.notExist "Product" p) := by
      rw [Topic.missing?, Option.map_eq_some_iff]
      exact ⟨p, by simpa using hp, rfl⟩
    exact Topic.generated_missing h hmissing
  · intro hdefault
    have hpresent : Topic.hostTable.missing? defaultProduct (start.run events) = none := by
      rw [Topic.missing?, Option.map_eq_none_iff, Option.filter_eq_none_iff]
      intro p hp
      simpa using hdefault p hp
    obtain ⟨f, hf, hshows⟩ := Topic.generated_shows h hpresent
    exact ⟨f, hf, hshows.version, hshows.defaultProduct, hshows.partitions h⟩

def hostedShops : List Event :=
  [.call {} ⟨0⟩ (.createProduct ⟨"shop", "", [], []⟩),
    .call {} ⟨0⟩ (.createProduct ⟨"press", "", [], []⟩),
    .call {} ⟨0⟩ (.createDomain "shop" ⟨"*.Shop.example.", false, false⟩),
    .call {} ⟨0⟩ (.createDomain "press" ⟨"shop.example", false, false⟩)]

theorem hostedShops_hosts :
    (∀ p, some "shop" = some p → p ∈ tenants (start.run hostedShops)) ∧
      "desk" ∉ tenants (start.run hostedShops) ∧
      Topic.hostTable.generated (some "desk") (start.run hostedShops) =
        .error (.notExist "Product" "desk") ∧
      ∃ f, Topic.hostTable.generated (some "shop") (start.run hostedShops) = .ok f ∧
        Partitions (start.run hostedShops) f ∧
        f.listed.Perm ["*.shop.example", "shop.example"] ∧
        ∃ l, f.hosts.get? "press" = some l ∧ "shop.example" ∈ l := by
  have hshop : ∀ p, some "shop" = some p → p ∈ tenants (start.run hostedShops) := by
    rintro p heq
    cases heq
    decide +kernel
  have hdesk : "desk" ∉ tenants (start.run hostedShops) := by decide +kernel
  have hnames : (start.run hostedShops).domains.values.map Domain.name =
      ["*.shop.example", "shop.example"] := by decide +kernel
  have howner : OwnsHost (start.run hostedShops) "press" "shop.example" :=
    ⟨⟨5⟩, ⟨⟨5⟩, "shop.example", ⟨3⟩, false, false⟩, by decide +kernel, rfl,
      ⟨⟨3⟩, "press", "", [], []⟩, by decide +kernel, rfl⟩
  obtain ⟨f, hf, -, -, hpartitions⟩ := (run_hosts hostedShops (some "shop")).2 hshop
  have honce := hpartitions.once
  rw [hnames] at honce
  exact ⟨hshop, hdesk, (run_hosts hostedShops (some "desk")).1 "desk" rfl hdesk, f, hf, hpartitions,
    honce, (hpartitions.owned "press" "shop.example").2 howner⟩

end Store.Tables
end FleetControl
