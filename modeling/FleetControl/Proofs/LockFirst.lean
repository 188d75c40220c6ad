import FleetControl.Proofs.Minting
import Mathlib.Computability.Language

/-!
Locks come first. What a program sends is described by a language of statements, of which it sends a
word if it ends well and the beginning of one if it fails. A replacement of rules holds its product, and
the rules it has, before it reads what the new rules refer to and before it changes any.
-/

namespace FleetControl.Sql

open Store.Database

variable {ε α β : Type} {L M : Language Statement} {P : Statement → Prop} {st : Statement}

def Says (L : Language Statement) (x : Exchange ε α) : Prop :=
  ∀ s : Session, s.alive = true → ∃ word ∈ L, ∃ said, said <+: word ∧
    (x s).2 = said.foldl Session.told s ∧ ∀ a, (x s).1 = .ok a → said = word

def Each (P : Statement → Prop) : Language Statement := {sts | ∀ st ∈ sts, P st}

theorem says_each {x : Exchange ε α} (h : Sends P x) : Says (Each P) x := by
  intro s _
  obtain ⟨sts, hs, hsts⟩ := h s
  exact ⟨sts, hsts, sts, List.prefix_rfl, hs, fun _ _ => rfl⟩

theorem says_told {x : Exchange ε α} (h : ∀ s : Session, s.alive = true → (x s).2 = s.told st) :
    Says {[st]} x :=
  fun s halive => ⟨[st], rfl, [st], List.prefix_rfl, h s halive, fun _ _ => rfl⟩

theorem says_pure (a : α) : Says 1 (pure a : Exchange ε α) :=
  fun _ _ => ⟨[], rfl, [], List.prefix_rfl, rfl, fun _ _ => rfl⟩

theorem says_bind [Nonempty α] {x : Exchange ε α} {k : α → Exchange ε β} (hx : Says L x)
    (hk : ∀ a, Says M (k a)) : Says (L * M) (x >>= k) := by
  intro s halive
  obtain ⟨word, hword, said, hsaid, hs, hok⟩ := hx s halive
  rcases bind_cases x k s with ⟨a, t, hxs, hrun⟩ | ⟨e, t, hxs, hrun⟩
  · rw [hxs] at hs hok
    obtain rfl : said = word := hok a rfl
    obtain rfl : t = said.foldl Session.told s := hs
    have hheard : Session.Hears (fun _ => True) s (said.foldl Session.told s) :=
      ⟨said, rfl, fun _ _ => trivial⟩
    obtain ⟨word', hword', said', hsaid', hs', hok'⟩ := hk a _ (hheard.same.1.trans halive)
    refine ⟨said ++ word', Language.append_mem_mul hword hword', said ++ said', ?_, ?_, ?_⟩
    · exact (List.prefix_append_right_inj said).2 hsaid'
    · rw [hrun, hs', List.foldl_append]
    · intro b hb
      rw [hrun] at hb
      rw [hok' b hb]
  · -- what was not said could have been any word of the rest
    obtain ⟨rest, hrest, -⟩ := hk (Classical.arbitrary α) s halive
    rw [hxs] at hs
    refine ⟨word ++ rest, Language.append_mem_mul hword hrest, said, ?_, ?_, ?_⟩
    · exact hsaid.trans (List.prefix_append word rest)
    · rw [hrun]
      exact hs
    · rw [hrun]
      nofun

end FleetControl.Sql

namespace FleetControl.Control.Routes

open Store Store.Database Sql Work

def productStatement (name : String) : Statement :=
  ⟨"SELECT " ++ productColumns ++ " FROM products WHERE ($1::BIGINT IS NULL OR id = $1) " ++
    "AND ($2::TEXT IS NULL OR name = $2) ORDER BY name", [arg (none : Option ProductId), arg (some name)]⟩

def lockProduct (id : ProductId) : Statement :=
  ⟨"SELECT id FROM products WHERE id = $1 FOR UPDATE", [arg id]⟩

def lockRules (id : ProductId) : Statement :=
  ⟨"SELECT id FROM advanced_route_rules WHERE product_id = $1 FOR UPDATE", [arg id]⟩

def deleteBasic (id : ProductId) : Statement :=
  ⟨"DELETE FROM basic_route_rules WHERE product_id = $1", [arg id]⟩

def deleteAdvanced (id : ProductId) : Statement :=
  ⟨"DELETE FROM advanced_route_rules WHERE product_id = $1", [arg id]⟩

def check (ignoreReadiness : Bool) (product : Product) (rules : RouteRules) : Work RouteRules := do
  let domains ← ask (.fetchDomains { productId := some product.id })
  match foreignHost? domains 0 rules.basic with
  | some found => .fail (foreignHostFault product found)
  | none =>
    let (basic, known) ← resolveBasic ignoreReadiness product rules.basic ∅
    let advanced ← resolveAdvanced ignoreReadiness product rules.advanced known
    return ⟨basic, advanced⟩

def put (product : Product) (rules : RouteRules) : Work RouteRules := do
  ask (.deleteRouteRules product.id)
  ask (.createRouteRules product.id rules)
  return rules

def work (ignoreReadiness : Bool) (name : String) (rules : RouteRules) : Work RouteRules := do
  let product ← requireProduct name
  ask (.lockAdvancedRules product.id)
  let checked ← check ignoreReadiness product rules
  put product checked

variable {ignore : Bool} {name : String} {rules : RouteRules} {s s' : Session} {p : Product}

theorem replace_eq (ignore : Bool) (name : String) (rules : RouteRules) :
    replace ignore name rules =
      .guarded (rules.defect?.map RouteRules.Defect.fault) (.update (work ignore name rules)) := by
  rw [replace, work]
  refine congrArg (fun steps => Operation.guarded _ (.update (requireProduct name >>= steps)))
    (funext fun p => ?_)
  refine congrArg (ask (.lockAdvancedRules p.id) >>= ·) (funext fun _ => ?_)
  rw [check, bind_assoc]
  refine congrArg (ask (.fetchDomains { productId := some p.id }) >>= ·) (funext fun domains => ?_)
  cases foreignHost? domains 0 rules.basic with
  | some found => rfl
  | none => simp only [bind_assoc, pure_bind, put]

def remainder (ignore : Bool) (rules : RouteRules) (p : Product) : Exchange Fault RouteRules :=
  exchange (.lockAdvancedRules p.id) >>= fun _ =>
    transact (check ignore p rules) >>= fun checked =>
      transact (put p checked) >>= fun replaced => commit >>= fun _ => pure replaced

theorem transact_work (ignore : Bool) (name : String) (rules : RouteRules) :
    (transact (work ignore name rules) >>= fun replaced => commit >>= fun _ => pure replaced) =
      transact (requireProduct name) >>= remainder ignore rules := by
  have hparts : ∀ p : Product, transact (ask (.lockAdvancedRules p.id) >>= fun _ =>
      check ignore p rules >>= fun checked => put p checked) =
        exchange (.lockAdvancedRules p.id) >>= fun _ =>
          transact (check ignore p rules) >>= fun checked => transact (put p checked) := by
    intro p
    rw [transact_bind, transact_ask]
    exact congrArg _ (funext fun _ => transact_bind _ _)
  rw [work, transact_bind, bind_assoc]
  refine congrArg _ (funext fun p => ?_)
  rw [hparts, bind_assoc]
  exact congrArg _ (funext fun _ => bind_assoc _ _ _)

theorem sends_check (ignore : Bool) (p : Product) (rules : RouteRules) :
    Sends (·.verb? = some .select) (transact (check ignore p rules)) := by
  have hreads : (check ignore p rules).Only (·.reads = true) := by
    refine only_bind (only_ask rfl) fun domains => ?_
    split
    · exact only_fail _
    · refine only_bind (resolveBasic_asks allowsReads_reads ignore p _ _) fun basic => ?_
      refine only_bind (resolveAdvanced_asks allowsReads_reads ignore p _ _) fun advanced => ?_
      exact only_pure _
  exact sends_verb (hreads.imp fun r => verb_of_reads)

def script (p : Product) : Language Statement :=
  {[lockProduct p.id]} * {[lockRules p.id]} * Each (·.verb? = some .select) *
    {[deleteBasic p.id]} * {[deleteAdvanced p.id]} * Each (·.verb? = some .insert) *
    {[⟨"COMMIT", []⟩]}

theorem says_lock (p : Product) :
    Says ({[lockProduct p.id]} * {[lockRules p.id]})
      (exchange (.lockAdvancedRules p.id) : Exchange Fault Unit) := by
  rw [← mul_one {[lockRules p.id]}]
  refine says_bind (says_told fun _ halive => fetchOptional_told _ _ halive rfl) fun _ => ?_
  exact says_bind (says_told fun _ halive => fetchAll_told _ _ halive rfl) fun _ => says_pure ()

theorem says_delete (p : Product) :
    Says ({[deleteBasic p.id]} * {[deleteAdvanced p.id]})
      (exchange (.deleteRouteRules p.id) : Exchange Fault Unit) :=
  says_bind (says_told fun _ halive => run_told _ halive rfl) fun _ =>
    says_told fun _ halive => run_told _ halive rfl

theorem says_put (p : Product) (rules : RouteRules) :
    Says ({[deleteBasic p.id]} * {[deleteAdvanced p.id]} * Each (·.verb? = some .insert))
      (transact (put p rules)) := by
  have hcreate : Says (Each (·.verb? = some .insert))
      (exchange (.createRouteRules p.id rules) : Exchange Fault Unit) := says_each (exchange_verb _)
  rw [put, transact_bind, transact_ask]
  refine says_bind (says_delete p) fun _ => ?_
  rw [transact_bind, transact_ask, ← mul_one (Each _)]
  exact says_bind hcreate fun _ => says_pure rules

theorem says_remainder (ignore : Bool) (rules : RouteRules) (p : Product) :
    Says (script p) (remainder ignore rules p) := by
  have : Nonempty RouteRules := ⟨.empty⟩
  have hcommit : Says {[⟨"COMMIT", []⟩]} commit :=
    says_told fun _ halive => congrArg Prod.snd (control_told halive rfl)
  have hend : ∀ replaced : RouteRules,
      Says {[⟨"COMMIT", []⟩]} (commit >>= fun _ => (pure replaced : Exchange Fault RouteRules)) := by
    intro replaced
    rw [← mul_one {[(⟨"COMMIT", []⟩ : Statement)]}]
    exact says_bind hcommit fun _ => says_pure replaced
  have hremainder := says_bind (says_lock p) fun _ =>
    says_bind (says_each (sends_check ignore p rules)) fun checked =>
      says_bind (says_put p checked) hend
  simp only [← mul_assoc] at hremainder
  exact hremainder

theorem requireProduct_told (halive : s.alive = true) :
    (transact (requireProduct name) s).2 = s.told (productStatement name) := by
  have hfetch : (exchange (.fetchProducts { name := some name }) s).2 = s.told (productStatement name) :=
    fetchAll_told _ _ halive rfl
  rw [← hfetch, requireProduct, transact_bind, transact_ask]
  refine (rest_bind (R := Eq) (exchange (.fetchProducts { name := some name })) (fun found => ?_) s).symm
  intro t
  cases List.head? found <;> rfl

theorem remainder_locks (ignore : Bool) (rules : RouteRules) (halive : s.alive = true) :
    s.sent ++ [lockProduct p.id] <+: (remainder ignore rules p s).2.sent := by
  have hlock : Session.Hears (fun _ => True) (s.told (lockProduct p.id))
      (exchange (.lockAdvancedRules p.id) s).2 := by
    rw [← fetchOptional_told ("Failed to lock product " ++ p.id.text) some halive rfl]
    refine rest_bind (R := Session.Hears _) _ (fun _ => ?_) s
    exact moves_bind (sends_fetchAll _ ⟨rfl, trivial⟩ _) fun _ => moves_pure ()
  have hrest : Session.Hears (fun _ => True) (exchange (.lockAdvancedRules p.id) s).2
      (remainder ignore rules p s).2 := by
    refine rest_bind (R := Session.Hears _) _ (fun _ => ?_) s
    refine moves_bind ((sends_check ignore p rules).imp fun _ _ => trivial) fun checked => ?_
    refine moves_bind ((sends_transact_verb _).imp fun _ _ => trivial) fun replaced => ?_
    exact moves_bind (sends_inContext _ (sends_control ⟨rfl, trivial⟩)) fun _ => moves_pure replaced
  obtain ⟨more, hmore, -⟩ := (trans_of (Session.Hears _) hlock hrest).sent
  exact ⟨more, hmore.symm⟩

/-- A replacement of rules reads its product, locks it, and goes on by the script. -/
structure ReplacesUnderLock (name : String) (rules : RouteRules) (s : Session)
    (out : Except Fault RouteRules × Session) : Prop where
  unsound : rules.defect?.isSome → out.2.sent = []
  unbegun : rules.defect? = none → "BEGIN" ∈ s.refused → out.2.sent = [⟨"BEGIN", []⟩]
  unknown : rules.defect? = none → "BEGIN" ∉ s.refused → ∀ f s',
    transact (requireProduct name) (s.told ⟨"BEGIN", []⟩) = (.error f, s') →
    out.2.sent = [⟨"BEGIN", []⟩, productStatement name]
  known : rules.defect? = none → "BEGIN" ∉ s.refused → ∀ p s',
    transact (requireProduct name) (s.told ⟨"BEGIN", []⟩) = (.ok p, s') →
    ∃ word ∈ script p, ∃ said, out.2.sent = [⟨"BEGIN", []⟩, productStatement name] ++ said ∧
      [lockProduct p.id] <+: said ∧ said <+: word ∧ ∀ a, out.1 = .ok a → said = word

theorem replace_underLock (ignore : Bool) (name : String) (rules : RouteRules) (replies : List Reply)
    (refused : List String) : ReplacesUnderLock name rules (.start replies refused)
      (perform (replace ignore name rules) (.start replies refused)) := by
  rw [replace_eq]
  cases hdefect : rules.defect? with
  | some d =>
    have hunsound : rules.defect? ≠ none := by simp [hdefect]
    exact ⟨fun _ => rfl, fun h => absurd h hunsound, fun h => absurd h hunsound,
      fun h => absurd h hunsound⟩
  | none =>
    have hsound : ¬ rules.defect?.isSome := by simp [hdefect]
    change ReplacesUnderLock name rules _ (perform (.update (work ignore name rules)) _)
    by_cases hrefused : "BEGIN" ∈ refused
    · rw [perform_unbegun rfl hrefused]
      exact ⟨fun h => absurd h hsound, fun _ _ => rfl, fun _ h => absurd hrefused h,
        fun _ h => absurd hrefused h⟩
    let opened := (Session.start replies refused).told ⟨"BEGIN", []⟩
    have hfound : (transact (requireProduct name) opened).2 = opened.told (productStatement name) :=
      requireProduct_told rfl
    rw [perform_begun rfl hrefused, transact_work]
    refine ⟨fun h => absurd h hsound, fun _ h => absurd h hrefused, fun _ _ f s' hp => ?_,
      fun _ _ p s' hp => ?_⟩
    · rw [run_bind_error hp]
      rw [hp] at hfound
      exact congrArg Session.sent hfound
    · rw [run_bind_ok hp]
      rw [hp] at hfound
      obtain rfl : s' = opened.told (productStatement name) := hfound
      obtain ⟨word, hword, said, hsaid, hsession, hok⟩ :=
        says_remainder ignore rules p (opened.told (productStatement name)) rfl
      have hsent := congrArg Session.sent hsession
      rw [Session.sent_foldl_told] at hsent
      have hlocks := remainder_locks (p := p) (s := opened.told (productStatement name)) ignore rules rfl
      rw [hsent] at hlocks
      exact ⟨word, hword, said, hsent, (List.prefix_append_right_inj _).1 hlocks, hsaid, hok⟩

example :
    let product : Row := [("id", .int8 5), ("name", .text "shop"), ("description", .text ""),
      ("mail_list", .json (.arr [])), ("contact", .json (.arr []))]
    let domain : Row := [("id", .int8 6), ("name", .text "shop.example"), ("product_id", .int8 5),
      ("using_advanced_redirect", .bool false), ("using_advanced_hsts", .bool false)]
    let cluster : Row := [("id", .int8 7), ("name", .text "front"), ("product_id", .int8 5),
      ("description", .text ""), ("basic", .json (.obj [])), ("sticky_sessions", .json (.obj [])),
      ("passive_health_check", .json (.obj []))]
    let rules : RouteRules := ⟨[⟨["shop.example"], [], "front", none, ""⟩],
      [⟨"rest", "default_t()", "front", none, ""⟩]⟩
    let replies : List Reply := [.rows [product], .rows [product], .rows [], .rows [domain],
      .rows [cluster], .rows [], .rows [], .affected 0, .affected 0, .affected 1, .affected 1]
    (perform (replace true "shop" rules) (.start replies [])).2.sent.filterMap Statement.verb? =
      [.begin, .select, .select, .select, .select, .select, .select, .select, .delete, .delete,
        .insert, .insert, .commit] := by
  decide +kernel

end FleetControl.Control.Routes

namespace FleetControl.Store.Database

open Sql Export

theorem perform_asJson {α : Type} [Versioned α] [Json.Encode α] (now : Instant) (e : Exporter α)
    (last : Option String) : perform (asJson (exportIfChanged now e last)) =
      (fun file => (ifChanged last file).map encode) <$> perform (exportFile now e) := by
  rw [asJson, exportIfChanged, perform_map, perform_map, ← comp_map]
  rfl

theorem perform_exportKnown (defaultProduct : Option String) (now : Instant) (last : Option String)
    (topic : Topic) : perform (exportKnown defaultProduct now last topic) =
      (fun file => (ifChanged last file).map encode) <$>
        perform (exportFile now (Publication.known defaultProduct topic).exporter) := by
  cases topic with
  | routeRule => exact perform_asJson now routeTable last
  | hostTable => exact perform_asJson now (hostTable defaultProduct) last
  | clusterTable => exact perform_asJson now clusterTable last
  | instanceTable => exact perform_asJson now instanceTable last
  | certificate => exact perform_asJson now serverCerts last
  | gslb bfe => exact perform_asJson now (gslb bfe) last

theorem perform_exportTopic (defaultProduct : Option String) (now : Instant) (name : String)
    (last : Option String) : perform (exportTopic defaultProduct now name last) =
      match Topic.ofName? name with
      | some topic => (fun file => (ifChanged last file).map encode) <$>
          perform (exportFile now (Publication.known defaultProduct topic).exporter)
      | none => throw (unknownTopic name) := by
  rw [exportTopic]
  cases Topic.ofName? name with
  | some topic => exact perform_exportKnown defaultProduct now last topic
  | none => rfl

/-- Whatever the server replies, a version is minted under the lock of its topic, and rules are replaced
under the locks of their product and of the rules it has. -/
theorem locks_first (replies : List Reply) (refused : List String) :
    (∀ (now : Instant) (p : Publication), MintsUnderLock now p.exporter (.start replies refused)
      (perform (exportFile now p.exporter) (.start replies refused))) ∧
    (∀ (defaultProduct : Option String) (now : Instant) (name : String) (last : Option String),
      perform (exportTopic defaultProduct now name last) =
        match Topic.ofName? name with
        | some topic => (fun file => (ifChanged last file).map encode) <$>
            perform (exportFile now (Publication.known defaultProduct topic).exporter)
        | none => throw (unknownTopic name)) ∧
    ∀ (ignoreReadiness : Bool) (name : String) (rules : RouteRules),
      Control.Routes.ReplacesUnderLock name rules (.start replies refused)
        (perform (Control.Routes.replace ignoreReadiness name rules) (.start replies refused)) := by
  refine ⟨fun now p => ?_, perform_exportTopic, fun ignore name rules => ?_⟩
  · exact exportFile_mintsUnderLock now p.fetches replies refused
  · exact Control.Routes.replace_underLock ignore name rules replies refused

end FleetControl.Store.Database
