import FleetControl.Proofs.Agreement
import FleetControl.Proofs.Creation

/-!
Replacing the rules of a product, from the request to the tables. What the resolver remembers of a
cluster is what it would find by looking again, so remembering makes no difference; and without it the
rules are resolved one by one, each by the name of its cluster alone.
-/

namespace FleetControl

def BasicRule.retarget (target : String → Option ClusterId) (r : BasicRule) : BasicRule :=
  { r with
    clusterId := if Cluster.isReservedName r.clusterName then none else target r.clusterName }

def AdvancedRule.retarget (target : String → Option ClusterId) (r : AdvancedRule) : AdvancedRule :=
  { r with clusterId := target r.clusterName }

namespace RouteRules

def retarget (target : String → Option ClusterId) (rules : RouteRules) : RouteRules where
  basic := rules.basic.map (.retarget target)
  advanced := rules.advanced.map (.retarget target)

def targets (rules : RouteRules) : List String :=
  (rules.basic.map (·.clusterName)).filter (fun n => !Cluster.isReservedName n) ++
    rules.advanced.map (·.clusterName)

theorem mem_targets_basic {rules : RouteRules} {r : BasicRule} (hr : r ∈ rules.basic)
    (hname : Cluster.isReservedName r.clusterName = false) : r.clusterName ∈ rules.targets := by
  apply List.mem_append_left
  exact List.mem_filter.2 ⟨List.mem_map_of_mem hr, by simp [hname]⟩

theorem mem_targets_advanced {rules : RouteRules} {r : AdvancedRule} (hr : r ∈ rules.advanced) :
    r.clusterName ∈ rules.targets :=
  List.mem_append_right _ (List.mem_map_of_mem hr)

end RouteRules
end FleetControl

namespace FleetControl.Store.Tables

open Work

variable {t : Tables}

theorem run_eq_of_fetches {α : Type} {w w' : Work α} (hw : w.Only (·.fetches = true))
    (hw' : w'.Only (·.fetches = true)) (hyields : ∀ a, Yields answer t w a t → Yields answer t w' a t)
    (hfails : ∀ f, Fails answer t w f → Fails answer t w' f) :
    w.run answer t = w'.run answer t := by
  have hstate := fetches_run hw t
  have hstate' := fetches_run hw' t
  cases hrun : w.run answer t with
  | mk result u =>
    rw [hrun] at hstate
    obtain rfl : u = t := hstate
    cases result with
    | ok a => exact (hyields a hrun).symm
    | error f =>
      have hfault : (w'.run answer u).1 = .error f := hfails f (congrArg Prod.fst hrun)
      exact Prod.ext hfault.symm hstate'.symm

def targetOf (t : Tables) (q : ProductId) (name : String) : Option ClusterId :=
  (t.clusters.values.find? fun c => c.name = name ∧ c.productId = q).map (·.id)

theorem targetOf_eq_some (hn : t.Numbered) (hnamed : Named t) {q : ProductId} {name : String}
    {k : ClusterId} : t.targetOf q name = some k ↔ t.IsTarget q name k := by
  rw [targetOf, Option.map_eq_some_iff]
  constructor
  · rintro ⟨c, hfound, rfl⟩
    obtain ⟨i, hc⟩ := SortedMap.mem_values.1 (List.mem_of_find?_eq_some hfound)
    have hmatch : c.name = name ∧ c.productId = q := by simpa using List.find?_some hfound
    have hown : c.id = i := hn.clusters.own hc
    exact ⟨c, by rw [hown]; exact hc, hmatch.1, hmatch.2⟩
  · rintro ⟨c, hc, rfl, rfl⟩
    have hsome : (t.clusters.values.find? fun d =>
        d.name = c.name ∧ d.productId = c.productId).isSome = true :=
      List.find?_isSome.2 ⟨c, SortedMap.mem_values.2 ⟨k, hc⟩, by simp⟩
    obtain ⟨d, hd⟩ := Option.isSome_iff_exists.1 hsome
    obtain ⟨i, hstored⟩ := SortedMap.mem_values.1 (List.mem_of_find?_eq_some hd)
    have hname : d.name = c.name := (by simpa using List.find?_some hd : _ ∧ _).1
    -- Names of clusters are unique, so it is the one that was asked for.
    have hid : i = k := hnamed.clusters i k d c hstored hc hname
    exact ⟨d, hd, (hn.clusters.own hstored).trans hid⟩

end FleetControl.Store.Tables

namespace FleetControl.Control

open Store Store.Work Store.Tables

variable {t t' : Tables} {ignore : Bool} {p : Product}

theorem forall₂_of_forAll {α β : Type} {f : α → Work β} (hf : ∀ a, (f a).Only (·.fetches = true))
    {as : List α} {bs : List β} (hw : Yields answer t (forAll f as) bs t') :
    List.Forall₂ (fun a b => Yields answer t (f a) b t) as bs := by
  induction as generalizing bs with
  | nil =>
    obtain ⟨rfl, -⟩ := yields_forAll_nil.1 hw
    exact .nil
  | cons a as ih =>
    obtain ⟨b, u, hb, cs, hcs, rfl⟩ := yields_forAll_cons.1 hw
    obtain rfl := fetches_yields (hf a) hb
    exact .cons hb (ih hcs)

theorem foreignHost?_of_covered {domains : List Domain} {i : Nat} {rules : List BasicRule}
    (h : ∀ r ∈ rules, ∀ host ∈ r.hostNames, ∃ d ∈ domains, Hostname.covers d.name host = true) :
    Routes.foreignHost? domains i rules = none := by
  induction rules generalizing i with
  | nil => rfl
  | cons r rules ih =>
    have hnone : (r.hostNames.find? fun host =>
        !domains.any fun d => Hostname.covers d.name host) = none := by
      rw [List.find?_eq_none]
      intro host hhost
      obtain ⟨d, hd, hcovers⟩ := h r List.mem_cons_self host hhost
      simpa using ⟨d, hd, hcovers⟩
    rw [Routes.foreignHost?, hnone]
    exact ih fun s hs => h s (List.mem_cons_of_mem r hs)

namespace Routes

variable {known : Resolved} {name : String}

/-! The rules resolved one by one, with nothing remembered from one to the next. -/

def lookUp (ignore : Bool) (p : Product) (name : String) : Work ClusterId := do
  let record ← requireCluster p name
  let cluster ← assembleCluster ignore record
  refuseIf (.dependentUnready ("Cluster '" ++ name ++ "' is not ready")) !cluster.ready
  return cluster.id

def targetBasic (ignore : Bool) (p : Product) (r : BasicRule) : Work BasicRule :=
  if Cluster.isReservedName r.clusterName then .done { r with clusterId := none }
  else do
    let id ← lookUp ignore p r.clusterName
    return { r with clusterId := some id }

def targetAdvanced (ignore : Bool) (p : Product) (r : AdvancedRule) : Work AdvancedRule := do
  let id ← lookUp ignore p r.clusterName
  return { r with clusterId := some id }

def resolveEach (ignore : Bool) (p : Product) (rules : RouteRules) : Work RouteRules := do
  let basic ← forAll (targetBasic ignore p) rules.basic
  let advanced ← forAll (targetAdvanced ignore p) rules.advanced
  return ⟨basic, advanced⟩

def resolveAll (ignore : Bool) (p : Product) (rules : RouteRules) : Work RouteRules := do
  let (basic, known) ← resolveBasic ignore p rules.basic ∅
  let advanced ← resolveAdvanced ignore p rules.advanced known
  return ⟨basic, advanced⟩

def storeBy (resolution : Product → RouteRules → Work RouteRules) (p : Product)
    (rules : RouteRules) (domains : List Domain) : Work RouteRules :=
  match foreignHost? domains 0 rules.basic with
  | some found => .fail (foreignHostFault p found)
  | none => do
    let resolved ← resolution p rules
    ask (.deleteRouteRules p.id)
    ask (.createRouteRules p.id resolved)
    return resolved

def replaceBy (resolution : Product → RouteRules → Work RouteRules) (product : String)
    (rules : RouteRules) : Operation RouteRules :=
  .guarded (rules.defect?.map RouteRules.Defect.fault) <| .update do
    let p ← requireProduct product
    ask (.lockAdvancedRules p.id)
    let domains ← ask (.fetchDomains { productId := some p.id })
    storeBy resolution p rules domains

theorem replace_eq_replaceBy (ignore : Bool) (product : String) (rules : RouteRules) :
    replace ignore product rules = replaceBy (resolveAll ignore) product rules := by
  rw [replace, replaceBy]
  refine congrArg (fun steps => Operation.guarded _ (.update (requireProduct product >>= steps)))
    (funext fun p => ?_)
  refine congrArg (ask (.lockAdvancedRules p.id) >>= ·) (funext fun _ => ?_)
  refine congrArg (ask (.fetchDomains { productId := some p.id }) >>= ·) (funext fun domains => ?_)
  rw [storeBy]
  cases foreignHost? domains 0 rules.basic with
  | some found => rfl
  | none =>
    dsimp only
    rw [resolveAll, bind_assoc]
    refine congrArg (resolveBasic ignore p rules.basic ∅ >>= ·) (funext fun resolved => ?_)
    obtain ⟨basic, known⟩ := resolved
    simp only [bind_assoc, pure_bind]

theorem lookUp_fetches (ignore : Bool) (p : Product) (name : String) :
    (lookUp ignore p name).Only (·.fetches = true) :=
  only_bind (requireCluster_fetches p name) fun record =>
    only_bind (assembleCluster_fetches ignore record) fun _ =>
      only_bind (only_refuseIf _ _) fun _ => only_pure _

theorem targetBasic_fetches (ignore : Bool) (p : Product) (r : BasicRule) :
    (targetBasic ignore p r).Only (·.fetches = true) := by
  rw [targetBasic]
  split
  · exact only_done _
  · exact only_bind (lookUp_fetches ignore p r.clusterName) fun _ => only_pure _

theorem targetAdvanced_fetches (ignore : Bool) (p : Product) (r : AdvancedRule) :
    (targetAdvanced ignore p r).Only (·.fetches = true) :=
  only_bind (lookUp_fetches ignore p r.clusterName) fun _ => only_pure _

theorem targetBasic_reserved (t : Tables) {r : BasicRule}
    (hreserved : Cluster.isReservedName r.clusterName = true) :
    Yields answer t (targetBasic ignore p r) { r with clusterId := none } t := by
  rw [targetBasic, if_pos hreserved]
  exact yields_done.2 ⟨rfl, rfl⟩

theorem targetBasic_finds {r : BasicRule} {k : ClusterId}
    (hfree : ¬ Cluster.isReservedName r.clusterName = true)
    (hk : Yields answer t (lookUp ignore p r.clusterName) k t) :
    Yields answer t (targetBasic ignore p r) { r with clusterId := some k } t := by
  rw [targetBasic, if_neg hfree, yields_bind]
  exact ⟨k, t, hk, yields_pure.2 ⟨rfl, rfl⟩⟩

theorem targetAdvanced_finds {r : AdvancedRule} {k : ClusterId}
    (hk : Yields answer t (lookUp ignore p r.clusterName) k t) :
    Yields answer t (targetAdvanced ignore p r) { r with clusterId := some k } t := by
  rw [targetAdvanced, yields_bind]
  exact ⟨k, t, hk, yields_pure.2 ⟨rfl, rfl⟩⟩

/-! Remembering makes no difference. -/

def Recalls (ignore : Bool) (t : Tables) (p : Product) (known : Resolved) : Prop :=
  ∀ n k, known.get? n = some k → Yields answer t (lookUp ignore p n) k t

theorem recalls_empty : Recalls ignore t p ∅ := by
  intro n k hk
  simp at hk

theorem Recalls.insert (h : Recalls ignore t p known) {k : ClusterId}
    (hk : Yields answer t (lookUp ignore p name) k t) :
    Recalls ignore t p (known.insert name k) := by
  intro n i hi
  rcases SortedMap.get?_insert_eq_some.1 hi with ⟨rfl, rfl⟩ | ⟨-, hi⟩
  · exact hk
  · exact h n i hi

theorem resolve_run (h : Recalls ignore t p known) (name : String) :
    (resolve ignore p name known).run answer t =
      (do let k ← lookUp ignore p name
          return (k, known.insert name k) : Work (ClusterId × Resolved)).run answer t := by
  rw [resolve]
  split
  · rename_i k hk
    have hagain : Yields answer t (lookUp ignore p name) k t := h name k hk
    have hsame : known.insert name k = known := by
      apply SortedMap.ext
      intro n
      rw [SortedMap.get?_insert]
      split
      · rename_i hn
        rw [hn, hk]
      · rfl
    have hlook : Yields answer t (do
        let i ← lookUp ignore p name
        return (i, known.insert name i) : Work (ClusterId × Resolved)) (k, known) t := by
      rw [yields_bind]
      exact ⟨k, t, hagain, yields_pure.2 ⟨by rw [hsame], rfl⟩⟩
    rw [Yields] at hlook
    rw [hlook]
    rfl
  · simp only [lookUp, bind_assoc, pure_bind]

theorem resolve_yields_iff (h : Recalls ignore t p known) {found : ClusterId × Resolved} :
    Yields answer t (resolve ignore p name known) found t' ↔
      ∃ k, Yields answer t (lookUp ignore p name) k t' ∧ (k, known.insert name k) = found := by
  rw [Yields, resolve_run h, ← Yields]
  simp only [yields_bind, yields_pure]
  constructor
  · rintro ⟨k, _, hk, hfound, rfl⟩
    exact ⟨k, hk, hfound⟩
  · rintro ⟨k, hk, hfound⟩
    exact ⟨k, t', hk, hfound, rfl⟩

theorem resolve_fails_iff (h : Recalls ignore t p known) {f : Fault} :
    Fails answer t (resolve ignore p name known) f ↔ Fails answer t (lookUp ignore p name) f := by
  rw [Fails, resolve_run h, ← Fails]
  simp only [fails_bind, fails_pure, and_false, exists_false, or_false]

theorem resolveBasic_afresh (h : Recalls ignore t p known) {rules : List BasicRule}
    {found : List BasicRule × Resolved}
    (hw : Yields answer t (resolveBasic ignore p rules known) found t') :
    t' = t ∧ Yields answer t (forAll (targetBasic ignore p) rules) found.1 t ∧
      Recalls ignore t p found.2 := by
  -- What is remembered grows along the list, and could be found again at any time.
  induction rules generalizing known found with
  | nil =>
    obtain ⟨rfl, rfl⟩ := yields_done.1 hw
    exact ⟨rfl, yields_forAll_nil.2 ⟨rfl, rfl⟩, h⟩
  | cons r rules ih =>
    rw [resolveBasic] at hw
    split at hw
    · rename_i hreserved
      simp only [yields_bind, yields_pure] at hw
      obtain ⟨rest, _, hrest, rfl, rfl⟩ := hw
      obtain ⟨rfl, hall, hrecalls⟩ := ih h hrest
      exact ⟨rfl, yields_forAll_cons.2 ⟨_, _, targetBasic_reserved _ hreserved, rest.1, hall, rfl⟩,
        hrecalls⟩
    · rename_i hfree
      simp only [yields_bind, yields_pure, resolve_yields_iff h] at hw
      obtain ⟨_, u, ⟨k, hk, rfl⟩, rest, _, hrest, rfl, rfl⟩ := hw
      obtain rfl := fetches_yields (lookUp_fetches ignore p r.clusterName) hk
      obtain ⟨rfl, hall, hrecalls⟩ := ih (h.insert hk) hrest
      have hfirst := targetBasic_finds hfree hk
      exact ⟨rfl, yields_forAll_cons.2 ⟨_, _, hfirst, rest.1, hall, rfl⟩, hrecalls⟩

theorem resolveBasic_fails_afresh (h : Recalls ignore t p known) {rules : List BasicRule}
    {f : Fault} (hw : Fails answer t (resolveBasic ignore p rules known) f) :
    Fails answer t (forAll (targetBasic ignore p) rules) f := by
  induction rules generalizing known with
  | nil => exact (fails_done.1 hw).elim
  | cons r rules ih =>
    rw [resolveBasic] at hw
    rw [fails_forAll_cons]
    split at hw
    · rename_i hreserved
      simp only [fails_bind, fails_pure, and_false, exists_false, or_false] at hw
      exact Or.inr ⟨_, t, targetBasic_reserved t hreserved, ih h hw⟩
    · rename_i hfree
      simp only [fails_bind, fails_pure, and_false, exists_false, or_false, resolve_yields_iff h,
        resolve_fails_iff h] at hw
      rw [targetBasic, if_neg hfree]
      simp only [fails_bind, fails_pure, and_false, exists_false, or_false, yields_bind, yields_pure]
      rcases hw with hfirst | ⟨_, u, ⟨k, hk, rfl⟩, hrest⟩
      · exact Or.inl hfirst
      · obtain rfl := fetches_yields (lookUp_fetches ignore p r.clusterName) hk
        exact Or.inr ⟨_, u, ⟨k, u, hk, rfl, rfl⟩, ih (h.insert hk) hrest⟩

theorem resolveAdvanced_afresh (h : Recalls ignore t p known) {rules found : List AdvancedRule}
    (hw : Yields answer t (resolveAdvanced ignore p rules known) found t') :
    t' = t ∧ Yields answer t (forAll (targetAdvanced ignore p) rules) found t := by
  induction rules generalizing known found with
  | nil =>
    obtain ⟨rfl, rfl⟩ := yields_done.1 hw
    exact ⟨rfl, yields_forAll_nil.2 ⟨rfl, rfl⟩⟩
  | cons r rules ih =>
    simp only [resolveAdvanced, yields_bind, yields_pure, resolve_yields_iff h] at hw
    obtain ⟨_, u, ⟨k, hk, rfl⟩, rest, _, hrest, rfl, rfl⟩ := hw
    obtain rfl := fetches_yields (lookUp_fetches ignore p r.clusterName) hk
    obtain ⟨rfl, hall⟩ := ih (h.insert hk) hrest
    have hfirst := targetAdvanced_finds hk
    exact ⟨rfl, yields_forAll_cons.2 ⟨_, _, hfirst, rest, hall, rfl⟩⟩

theorem resolveAdvanced_fails_afresh (h : Recalls ignore t p known) {rules : List AdvancedRule}
    {f : Fault} (hw : Fails answer t (resolveAdvanced ignore p rules known) f) :
    Fails answer t (forAll (targetAdvanced ignore p) rules) f := by
  induction rules generalizing known with
  | nil => exact (fails_done.1 hw).elim
  | cons r rules ih =>
    rw [fails_forAll_cons]
    simp only [resolveAdvanced, fails_bind, fails_pure, and_false, exists_false, or_false,
      resolve_yields_iff h, resolve_fails_iff h] at hw
    simp only [targetAdvanced, fails_bind, fails_pure, and_false, exists_false, or_false,
      yields_bind, yields_pure]
    rcases hw with hfirst | ⟨_, u, ⟨k, hk, rfl⟩, hrest⟩
    · exact Or.inl hfirst
    · obtain rfl := fetches_yields (lookUp_fetches ignore p r.clusterName) hk
      exact Or.inr ⟨_, u, ⟨k, u, hk, rfl, rfl⟩, ih (h.insert hk) hrest⟩

theorem resolveEach_fetches (ignore : Bool) (p : Product) (rules : RouteRules) :
    (resolveEach ignore p rules).Only (·.fetches = true) :=
  only_bind (only_forAll (targetBasic_fetches ignore p) rules.basic) fun _ =>
    only_bind (only_forAll (targetAdvanced_fetches ignore p) rules.advanced) fun _ => only_pure _

theorem resolveAll_fetches (ignore : Bool) (p : Product) (rules : RouteRules) :
    (resolveAll ignore p rules).Only (·.fetches = true) :=
  only_bind (resolveBasic_asks (fun _ hr => hr) ignore p rules.basic ∅) fun found =>
    only_bind (resolveAdvanced_asks (fun _ hr => hr) ignore p rules.advanced found.2) fun _ =>
      only_pure _

theorem resolveAll_run (ignore : Bool) (p : Product) (rules : RouteRules) (t : Tables) :
    (resolveAll ignore p rules).run answer t = (resolveEach ignore p rules).run answer t := by
  apply run_eq_of_fetches (resolveAll_fetches ignore p rules) (resolveEach_fetches ignore p rules)
  · intro resolved hw
    simp only [resolveAll, resolveEach, yields_bind, yields_pure] at hw ⊢
    obtain ⟨basic, _, hbasic, advanced, _, hadvanced, hresolved, -⟩ := hw
    obtain ⟨rfl, hall, hrecalls⟩ := resolveBasic_afresh recalls_empty hbasic
    obtain ⟨rfl, hall'⟩ := resolveAdvanced_afresh hrecalls hadvanced
    exact ⟨basic.1, _, hall, advanced, _, hall', hresolved, rfl⟩
  · intro f hw
    simp only [resolveAll, resolveEach, fails_bind, fails_pure, and_false, exists_false,
      or_false] at hw ⊢
    rcases hw with hw | ⟨basic, _, hbasic, hw⟩
    · exact Or.inl (resolveBasic_fails_afresh recalls_empty hw)
    · obtain ⟨rfl, hall, hrecalls⟩ := resolveBasic_afresh recalls_empty hbasic
      exact Or.inr ⟨basic.1, _, hall, resolveAdvanced_fails_afresh hrecalls hw⟩

theorem run_bind_congr {α β : Type} {w w' : Work α} {k k' : α → Work β}
    (hw : w.run answer t = w'.run answer t)
    (hk : ∀ a u, (k a).run answer u = (k' a).run answer u) :
    (w >>= k).run answer t = (w' >>= k').run answer t := by
  rw [bind_eq, bind_eq, run_bind, run_bind, hw]
  split
  · exact hk _ _
  · rfl

theorem storeBy_run (ignore : Bool) (p : Product) (rules : RouteRules) (domains : List Domain)
    (t : Tables) : (storeBy (resolveAll ignore) p rules domains).run answer t =
      (storeBy (resolveEach ignore) p rules domains).run answer t := by
  rw [storeBy, storeBy]
  split
  · rfl
  · exact run_bind_congr (resolveAll_run ignore p rules t) fun _ _ => rfl

/-- Looking every name up by itself, in the order of the rules, gives the same answer or the same
fault, and leaves the same tables. -/
theorem replace_eq_afresh (ignore : Bool) (product : String) (rules : RouteRules) (t : Tables) :
    t.perform (replace ignore product rules) =
      t.perform (replaceBy (resolveEach ignore) product rules) := by
  rw [replace_eq_replaceBy, replaceBy, replaceBy]
  cases rules.defect?.map RouteRules.Defect.fault with
  | some f => rfl
  | none =>
    rw [Operation.guarded, Operation.guarded, perform, perform]
    rw [run_bind_congr rfl fun p u => run_bind_congr rfl fun _ v =>
      run_bind_congr rfl fun domains w => storeBy_run ignore p rules domains w]

/-! What a name leads to. -/

theorem lookUp_yields (hn : t.Numbered) {k : ClusterId}
    (hw : Yields answer t (lookUp ignore p name) k t') :
    t' = t ∧ t.IsTarget p.id name k ∧ t.Serves ignore k := by
  simp only [lookUp, yields_bind, yields_refuseIf, yields_pure] at hw
  obtain ⟨r, _, hr, cluster, _, hcluster, _, _, ⟨hready, rfl⟩, rfl, rfl⟩ := hw
  obtain ⟨rfl, hstored, hname, howned⟩ := requireCluster_yields hn hr
  have hserves := (assembleCluster_ready_iff hn hcluster).1 (by simpa using hready)
  obtain ⟨rfl, rfl, -⟩ := assembleCluster_yields hn hcluster
  exact ⟨rfl, ⟨cluster.record, hstored, hname, howned⟩, hserves⟩

theorem lookUp_finds (hn : t.Numbered) (hnamed : Named t) (hsupplied : Supplied t) {k : ClusterId}
    (htarget : t.IsTarget p.id name k) (hserves : t.Serves ignore k) :
    Yields answer t (lookUp ignore p name) k t := by
  obtain ⟨r, hr, rfl, howned⟩ := htarget
  have hown : r.id = k := hn.clusters.own hr
  rw [← hown] at hr hserves ⊢
  obtain ⟨cluster, hcluster⟩ := hsupplied.assemble ignore r
  have hready := (assembleCluster_ready_iff hn hcluster).2 hserves
  obtain ⟨-, hrecord, -⟩ := assembleCluster_yields hn hcluster
  have hid : cluster.id = r.id := congrArg Cluster.Record.id hrecord
  simp only [lookUp, yields_bind, yields_refuseIf, yields_pure]
  exact ⟨r, t, requireCluster_finds hn hnamed hr howned, cluster, t, hcluster, (), t,
    ⟨by rw [hready]; rfl, rfl⟩, hid, rfl⟩

theorem map_eq_of_forall₂ {α β : Type} {R : α → β → Prop} {f : α → β}
    (hf : ∀ a b, R a b → f a = b) {as : List α} {bs : List β} (h : List.Forall₂ R as bs) :
    as.map f = bs := by
  have hmapped : List.Forall₂ Eq (as.map f) bs := List.forall₂_map_left_iff.2 (h.imp hf)
  rw [List.forall₂_eq_eq_eq] at hmapped
  exact hmapped

theorem targetBasic_yields (hn : t.Numbered) (hnamed : Named t) {r stored : BasicRule}
    (hw : Yields answer t (targetBasic ignore p r) stored t') :
    r.retarget (t.targetOf p.id) = stored ∧
      (Cluster.isReservedName r.clusterName = false →
        ∃ k, t.IsTarget p.id r.clusterName k ∧ t.Serves ignore k) := by
  rw [targetBasic] at hw
  split at hw
  · rename_i hreserved
    obtain ⟨rfl, -⟩ := yields_done.1 hw
    rw [BasicRule.retarget, if_pos hreserved, hreserved]
    exact ⟨rfl, fun hfree => by cases hfree⟩
  · rename_i hfree
    simp only [yields_bind, yields_pure] at hw
    obtain ⟨k, _, hk, rfl, -⟩ := hw
    obtain ⟨-, htarget, hserves⟩ := lookUp_yields hn hk
    rw [BasicRule.retarget, if_neg hfree, (targetOf_eq_some hn hnamed).2 htarget]
    exact ⟨rfl, fun _ => ⟨k, htarget, hserves⟩⟩

theorem targetAdvanced_yields (hn : t.Numbered) (hnamed : Named t) {r stored : AdvancedRule}
    (hw : Yields answer t (targetAdvanced ignore p r) stored t') :
    r.retarget (t.targetOf p.id) = stored ∧
      ∃ k, t.IsTarget p.id r.clusterName k ∧ t.Serves ignore k := by
  simp only [targetAdvanced, yields_bind, yields_pure] at hw
  obtain ⟨k, _, hk, rfl, -⟩ := hw
  obtain ⟨-, htarget, hserves⟩ := lookUp_yields hn hk
  rw [AdvancedRule.retarget, (targetOf_eq_some hn hnamed).2 htarget]
  exact ⟨rfl, k, htarget, hserves⟩

def Served (ignore : Bool) (t : Tables) (q : ProductId) (rules : RouteRules) : Prop :=
  ∀ n ∈ rules.targets, ∃ k, t.IsTarget q n k ∧ t.Serves ignore k

theorem resolveEach_yields (hn : t.Numbered) (hnamed : Named t) {rules resolved : RouteRules}
    (hw : Yields answer t (resolveEach ignore p rules) resolved t') :
    resolved = rules.retarget (t.targetOf p.id) ∧ Served ignore t p.id rules := by
  simp only [resolveEach, yields_bind, yields_pure] at hw
  obtain ⟨basic, u, hbasic, advanced, _, hadvanced, rfl, -⟩ := hw
  obtain rfl : u = t := fetches_yields (only_forAll (targetBasic_fetches ignore p) _) hbasic
  have hall := forall₂_of_forAll (targetBasic_fetches ignore p) hbasic
  have hall' := forall₂_of_forAll (targetAdvanced_fetches ignore p) hadvanced
  constructor
  · have hmap : rules.basic.map (.retarget (u.targetOf p.id)) = basic := by
      apply map_eq_of_forall₂ _ hall
      exact fun r stored h => (targetBasic_yields hn hnamed h).1
    have hmap' : rules.advanced.map (.retarget (u.targetOf p.id)) = advanced := by
      apply map_eq_of_forall₂ _ hall'
      exact fun r stored h => (targetAdvanced_yields hn hnamed h).1
    rw [RouteRules.retarget, hmap, hmap']
  · intro n hmem
    rcases List.mem_append.1 hmem with hmem | hmem
    · obtain ⟨hname, hfree⟩ := List.mem_filter.1 hmem
      obtain ⟨r, hr, rfl⟩ := List.mem_map.1 hname
      obtain ⟨stored, -, hstored⟩ := exists_left_of_forall₂ hall.flip hr
      exact (targetBasic_yields hn hnamed hstored).2 (by simpa using hfree)
    · obtain ⟨r, hr, rfl⟩ := List.mem_map.1 hmem
      obtain ⟨stored, -, hstored⟩ := exists_left_of_forall₂ hall'.flip hr
      exact (targetAdvanced_yields hn hnamed hstored).2

theorem resolveEach_finds (hn : t.Numbered) (hnamed : Named t) (hsupplied : Supplied t)
    {rules : RouteRules} (hserved : Served ignore t p.id rules) :
    Yields answer t (resolveEach ignore p rules) (rules.retarget (t.targetOf p.id)) t := by
  have hbasic : ∀ r ∈ rules.basic, Yields answer t (targetBasic ignore p r)
      (r.retarget (t.targetOf p.id)) t := by
    intro r hr
    rw [BasicRule.retarget]
    split
    · rename_i hreserved
      exact targetBasic_reserved t hreserved
    · rename_i hfree
      obtain ⟨k, htarget, hserves⟩ :=
        hserved r.clusterName (RouteRules.mem_targets_basic hr (by simpa using hfree))
      rw [(targetOf_eq_some hn hnamed).2 htarget]
      exact targetBasic_finds hfree (lookUp_finds hn hnamed hsupplied htarget hserves)
  have hadvanced : ∀ r ∈ rules.advanced, Yields answer t (targetAdvanced ignore p r)
      (r.retarget (t.targetOf p.id)) t := by
    intro r hr
    obtain ⟨k, htarget, hserves⟩ := hserved r.clusterName (RouteRules.mem_targets_advanced hr)
    rw [AdvancedRule.retarget, (targetOf_eq_some hn hnamed).2 htarget]
    exact targetAdvanced_finds (lookUp_finds hn hnamed hsupplied htarget hserves)
  have hall := yields_forAll (List.forall₂_map_right_iff.2 (List.forall₂_same.2 hbasic))
  have hall' := yields_forAll (List.forall₂_map_right_iff.2 (List.forall₂_same.2 hadvanced))
  simp only [resolveEach, yields_bind, yields_pure]
  exact ⟨_, t, hall, _, t, hall', rfl, rfl⟩

end Routes
end FleetControl.Control

namespace FleetControl.Store.Tables

open Control Work

variable {t t' : Tables} {ignoreReadiness : Bool} {p : Product} {rules : RouteRules}

/-- The rules can take the place of the product's: they are well-formed, the product's domains cover
their hosts, and the clusters they lead to are the product's and serve. -/
structure Replaceable (ignoreReadiness : Bool) (t : Tables) (p : Product) (rules : RouteRules) :
    Prop where
  valid : rules.defect? = none
  product : t.products.get? p.id = some p
  covered : ∀ r ∈ rules.basic, ∀ host ∈ r.hostNames, ∃ i d, t.domains.get? i = some d ∧
    d.productId = p.id ∧ Hostname.covers d.name host = true
  served : Routes.Served ignoreReadiness t p.id rules

def routed (t : Tables) (p : Product) (rules : RouteRules) : Tables :=
  { t with routeRules := t.routeRules.insert p.id (rules.retarget (t.targetOf p.id)) }

theorem Replaceable.performs (hr : Replaceable ignoreReadiness t p rules) (hn : t.Numbered)
    (hnamed : Named t) (hsupplied : Supplied t) :
    t.perform (Routes.replace ignoreReadiness p.name rules) =
      (.ok (rules.retarget (t.targetOf p.id)), t.routed p rules) := by
  have hcovered : Routes.foreignHost? (select t.domains
      (DomainFilter.admits { productId := some p.id }) Domain.name) 0 rules.basic = none := by
    apply foreignHost?_of_covered
    intro r hr' host hhost
    obtain ⟨i, d, hd, howned, hcovers⟩ := hr.covered r hr' host hhost
    exact ⟨d, hn.domains.mem_select_of_get? hd (by simp [DomainFilter.admits, howned]), hcovers⟩
  have hresolve := Routes.resolveEach_finds hn hnamed hsupplied hr.served
  have hstore : Yields answer t (Routes.storeBy (Routes.resolveEach ignoreReadiness) p rules
      (select t.domains (DomainFilter.admits { productId := some p.id }) Domain.name))
      (rules.retarget (t.targetOf p.id)) (t.routed p rules) := by
    rw [Routes.storeBy, hcovered]
    simp only [yields_bind, yields_ask, yields_pure]
    refine ⟨_, t, hresolve, (), _, rfl, (), _, rfl, rfl, ?_⟩
    dsimp only
    rw [insert_erased, routed]
  have hproduct := requireProduct_finds hn hnamed hr.product
  rw [Routes.replace_eq_afresh, Routes.replaceBy, hr.valid]
  apply perform_update_of_yields
  simp only [yields_bind, yields_ask]
  exact ⟨p, t, hproduct, (), t, rfl, _, t, rfl, hstore⟩

theorem replaceable_of_ok (hn : t.Numbered) (hnamed : Named t) {product : String}
    {stored : RouteRules}
    (hok : (t.perform (Routes.replace ignoreReadiness product rules)).1 = .ok stored) :
    ∃ p, p.name = product ∧ Replaceable ignoreReadiness t p rules := by
  rw [Routes.replace_eq_afresh, Routes.replaceBy] at hok
  cases hvalid : rules.defect? with
  | some d =>
    rw [hvalid] at hok
    cases hok
  | none =>
    rw [hvalid] at hok
    obtain ⟨t', hw⟩ := yields_of_perform_update hok
    simp only [yields_bind, yields_ask] at hw
    obtain ⟨p, _, hp, _, _, hlock, domains, _, hdomains, hw⟩ := hw
    obtain ⟨rfl, hproduct, rfl⟩ := requireProduct_yields hn hp
    cases hlock
    cases hdomains
    rw [Routes.storeBy] at hw
    split at hw
    · exact (yields_fail.1 hw).elim
    · rename_i hcovered
      rw [yields_bind] at hw
      obtain ⟨resolved, _, hresolved, -⟩ := hw
      have hserved := (Routes.resolveEach_yields hn hnamed hresolved).2
      refine ⟨p, rfl, hvalid, hproduct, ?_, hserved⟩
      intro r hr host hhost
      obtain ⟨d, hd, hcovers⟩ := foreignHost?_eq_none hcovered r hr host hhost
      obtain ⟨hstored, hadmits⟩ := hn.domains.mem_select.1 hd
      exact ⟨d.id, d, hstored, by simpa [DomainFilter.admits] using hadmits, hcovers⟩

/-- The rules were stored for the product as asked for, each with the product's cluster of the name it
gives, and nothing else changed; they are fetched as they were stored, and storing them again changes
nothing. -/
structure ReplacesRules (ignoreReadiness : Bool) (t : Tables) (p : Product) (rules : RouteRules)
    (stored : RouteRules) (t' : Tables) : Prop where
  product : t.products.get? p.id = some p
  retargeted : stored = rules.retarget (t.targetOf p.id)
  targets : ∀ n ∈ rules.targets, ∃ k, t.targetOf p.id n = some k ∧ t.IsTarget p.id n k ∧
    t.Serves ignoreReadiness k
  tables : t' = { t with routeRules := t.routeRules.insert p.id stored }
  fetched : t'.perform (Routes.fetch p.name) = (.ok stored, t')
  again : t'.perform (Routes.replace ignoreReadiness p.name rules) = (.ok stored, t')

theorem fetchRules_performs (hn : t.Numbered) (hnamed : Named t)
    (hp : t.products.get? p.id = some p) (hrules : t.routeRules.get? p.id = some rules) :
    t.perform (Routes.fetch p.name) = (.ok rules, t) := by
  have hread : ((t.routeRules.filter fun q _ => (some p.id).all (q = ·)).get? p.id).getD .empty =
      rules := by
    rw [SortedMap.get?_filter, hrules]
    simp [Option.filter]
  apply perform_query_of_yields
  simp only [yields_bind, yields_ask, yields_pure]
  exact ⟨p, t, requireProduct_finds hn hnamed hp, _, t, rfl, hread, rfl⟩

theorem routed_routed (t : Tables) (p : Product) (rules : RouteRules) :
    (t.routed p rules).routed p rules = t.routed p rules := by
  have hrules : (t.routed p rules).routeRules.insert p.id (rules.retarget (t.targetOf p.id)) =
      (t.routed p rules).routeRules := by
    apply SortedMap.ext
    intro q
    rw [routed, SortedMap.get?_insert, SortedMap.get?_insert]
    split
    · rfl
    · rfl
  change { t.routed p rules with
    routeRules := (t.routed p rules).routeRules.insert p.id (rules.retarget (t.targetOf p.id)) } =
      t.routed p rules
  rw [hrules]

theorem Replaceable.replaces (hr : Replaceable ignoreReadiness t p rules) (h : t.Reachable) :
    ReplacesRules ignoreReadiness t p rules (rules.retarget (t.targetOf p.id))
      (t.routed p rules) := by
  have hperform := hr.performs h.numbered h.named h.consistent.supplied
  have heffect := replaceRules_effect h.numbered ignoreReadiness p.name rules
  rw [hperform] at heffect
  have hn' := h.numbered.effect heffect
  have hnamed' := h.named.effect heffect
  have hsupplied' : Supplied (t.routed p rules) := h.consistent.supplied
  -- What the rules need is not among the rules, so it is there as before.
  have hr' : Replaceable ignoreReadiness (t.routed p rules) p rules :=
    ⟨hr.valid, hr.product, hr.covered, hr.served⟩
  have hstored : (t.routed p rules).routeRules.get? p.id =
      some (rules.retarget (t.targetOf p.id)) := SortedMap.get?_insert_self _ _ _
  refine ⟨hr.product, rfl, ?_, rfl, ?_, ?_⟩
  · intro n hmem
    obtain ⟨k, htarget, hserves⟩ := hr.served n hmem
    exact ⟨k, (targetOf_eq_some h.numbered h.named).2 htarget, htarget, hserves⟩
  · exact fetchRules_performs hn' hnamed' hr.product hstored
  · rw [hr'.performs hn' hnamed' hsupplied', routed_routed]
    rfl

/-- After any events, rules that replace those of a product are stored as they are but for their
targets, which are found by name and serve, and nothing else changes. The answer, be it the rules or a
fault, is the one that looking every name up by itself gives. -/
theorem run_replaces_rules (events : List Event) (ignoreReadiness : Bool) (product : String)
    (rules : RouteRules) :
    let t := start.run events
    let outcome := t.perform (Routes.replace ignoreReadiness product rules)
    outcome = t.perform (Routes.replaceBy (Routes.resolveEach ignoreReadiness) product rules) ∧
    ∀ stored, outcome.1 = .ok stored →
      ∃ p, p.name = product ∧ ReplacesRules ignoreReadiness t p rules stored outcome.2 := by
  intro t outcome
  have h : t.Reachable := ⟨events, rfl⟩
  refine ⟨Routes.replace_eq_afresh ignoreReadiness product rules t, ?_⟩
  intro stored hok
  obtain ⟨p, rfl, hr⟩ := replaceable_of_ok h.numbered h.named hok
  have houtcome : outcome = (.ok (rules.retarget (t.targetOf p.id)), t.routed p rules) :=
    hr.performs h.numbered h.named h.consistent.supplied
  rw [houtcome] at hok ⊢
  cases hok
  exact ⟨p, rfl, hr.replaces h⟩

/-- Rules that name a cluster more than once and come with targets that are wrong. -/
def mistargetedRules : RouteRules :=
  ⟨[⟨["shop.example"], ["/cart"], "front", some ⟨99⟩, ""⟩,
      ⟨["shop.example"], ["/pay"], "front", none, ""⟩,
      ⟨["shop.example"], [], "ADVANCED_MODE", some ⟨6⟩, ""⟩],
    [⟨"rest", "default_t()", "front", some ⟨7⟩, ""⟩]⟩

theorem routedFleet_replaces_rules :
    let outcome := (start.run routedFleet).perform (Routes.replace false "shop" mistargetedRules)
    ∃ stored, outcome.1 = .ok stored ∧ ∃ p, p.name = "shop" ∧
      ReplacesRules false (start.run routedFleet) p mistargetedRules stored outcome.2 := by
  have hreplaces := (run_replaces_rules routedFleet false "shop" mistargetedRules).2
  have hok : ((start.run routedFleet).perform
      (Routes.replace false "shop" mistargetedRules)).1.isOk = true := by decide +kernel
  obtain ⟨stored, hstored⟩ := exists_of_isOk hok
  exact ⟨stored, hstored, hreplaces stored hstored⟩

end FleetControl.Store.Tables
