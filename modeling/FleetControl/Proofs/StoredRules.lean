import FleetControl.Proofs.RuleGroups
import FleetControl.Proofs.Selections
import FleetControl.Proofs.Transactions

/-!
Route rules as a database keeps them. A rule becomes a row of one of two tables, with the number of its
place in the list of its product. From the rows of both tables, ordered as the queries ask, a session
puts together just the rules that were stored, and they are those that the tables in memory hold.
-/

namespace FleetControl.Store.Database

open Sql Json

variable {arrange : Json → Json} {γ : Type} {m : SortedMap ProductId RouteRules}
  {calls : List (ProductId × RouteRules)}

/-! Numbers of places. -/

theorem map_snd_numbered (n : Nat) (l : List γ) : (numbered n l).map Prod.snd = l := by
  induction l generalizing n with
  | nil => rfl
  | cons a l ih => rw [numbered, List.map_cons, ih]

theorem mem_numbered {n : Nat} {l : List γ} {e : Nat × γ} (h : e ∈ numbered n l) :
    n ≤ e.1 ∧ e.1 < n + l.length := by
  induction l generalizing n with
  | nil => cases h
  | cons a l ih =>
    rw [List.length_cons]
    rcases List.mem_cons.1 h with rfl | h
    · exact ⟨Nat.le_refl n, by omega⟩
    · have hbounds := ih h
      omega

theorem numbered_increasing (n : Nat) (l : List γ) :
    (numbered n l).Pairwise fun a b => a.1 < b.1 := by
  induction l generalizing n with
  | nil => exact List.Pairwise.nil
  | cons a l ih => exact List.pairwise_cons.2 ⟨fun e he => (mem_numbered he).1, ih (n + 1)⟩

/-! Tables of rules. -/

/-- How rules of one kind are put into their table, and how they are read from it again. -/
structure RuleTable (arrange : Json → Json) (γ : Type) where
  statement : ProductId → Nat → γ → Statement
  query : Statement
  read : Row → Option (ProductId × γ)
  selection : Selection
  row : ProductId → Nat → γ → Row
  query_text : Selection.ofText? query.text = some selection
  query_args : query.args = [.null]
  filed_statement : ∀ p i r, (statement p i r).filed? arrange = some (selection.table, row p i r)
  rank_row : ∀ p i r, selection.rank (row p i r) = [p.val, (Int32.ofNat i).toInt]
  read_shown : ∀ p i r shown, selection.Shows (row p i r) shown → read shown = some (p, r)

def clusterCell (id : Option ClusterId) : Cell := id.elim .null fun i => .int8 i.val

theorem ofCell?_clusterCell (id : Option ClusterId) :
    OfCell.ofCell? (clusterCell id) = some id := by
  cases id <;> rfl

def basicRules (hf : Rearranges arrange) : RuleTable arrange BasicRule where
  statement := basicRuleStatement
  query := basicRulesQuery none
  read := basicRule?
  selection := {
    columns := ["product_id", "host_names", "paths", "cluster_id", "cluster_name", "description"]
    table := "basic_route_rules"
    key := "product_id"
    order := ["product_id", "position"] }
  row p i r := [("product_id", .int8 p.val), ("position", .int4 (Int32.ofNat i).toInt),
    ("host_names", .json (arrange (encode r.hostNames))), ("paths", .json (arrange (encode r.paths))),
    ("cluster_id", clusterCell r.clusterId), ("cluster_name", .text r.clusterName),
    ("description", .text r.description)]
  query_text := by decide +kernel
  query_args := rfl
  filed_statement p i r := by
    refine Statement.filed?_eq {
      table := "basic_route_rules"
      columns := ["product_id", "position", "host_names", "paths", "cluster_id", "cluster_name",
        "description"]
      places := [1, 2, 3, 4, 5, 6, 7] } (by decide +kernel) ?_
    obtain ⟨hostNames, paths, clusterName, clusterId, description⟩ := r
    cases clusterId <;> rfl
  rank_row p i r := rfl
  read_shown p i r shown h := by
    simp only [Selection.Shows, List.forall_mem_cons] at h
    obtain ⟨hproduct, hhosts, hpaths, hid, hname, hdescription, -⟩ := h
    rw [basicRule?, Row.column?_eq hproduct rfl,
      Row.jsonColumn?_eq hhosts (LawfulCodec.decode hf r.hostNames),
      Row.jsonColumn?_eq hpaths (LawfulCodec.decode hf r.paths), Row.column?_eq hname rfl,
      Row.column?_eq hid (ofCell?_clusterCell r.clusterId), Row.column?_eq hdescription rfl]
    rfl

def advancedRules (arrange : Json → Json) : RuleTable arrange AdvancedRule where
  statement := advancedRuleStatement
  query := advancedRulesQuery none
  read := advancedRule?
  selection := {
    columns := ["product_id", "name", "expression", "cluster_id", "cluster_name", "description"]
    table := "advanced_route_rules"
    key := "product_id"
    order := ["product_id", "position"] }
  row p i r := [("product_id", .int8 p.val), ("position", .int4 (Int32.ofNat i).toInt),
    ("name", .text r.name), ("expression", .text r.expression),
    ("cluster_id", clusterCell r.clusterId), ("cluster_name", .text r.clusterName),
    ("description", .text r.description)]
  query_text := by decide +kernel
  query_args := rfl
  filed_statement p i r := by
    refine Statement.filed?_eq {
      table := "advanced_route_rules"
      columns := ["product_id", "position", "name", "expression", "cluster_id", "cluster_name",
        "description"]
      places := [1, 2, 3, 4, 5, 6, 7] } (by decide +kernel) ?_
    obtain ⟨name, expression, clusterName, clusterId, description⟩ := r
    cases clusterId <;> rfl
  rank_row p i r := rfl
  read_shown p i r shown h := by
    simp only [Selection.Shows, List.forall_mem_cons] at h
    obtain ⟨hproduct, hname, hexpression, hid, htarget, hdescription, -⟩ := h
    rw [advancedRule?, Row.column?_eq hproduct rfl, Row.column?_eq hname rfl,
      Row.column?_eq hexpression rfl, Row.column?_eq htarget rfl,
      Row.column?_eq hid (ofCell?_clusterCell r.clusterId), Row.column?_eq hdescription rfl]
    rfl

/-! Rules with their products and places. -/

section

variable (rules : RouteRules → List γ)

def placed (l : List (ProductId × RouteRules)) : List (ProductId × Nat × γ) :=
  l.flatMap fun e => (numbered 0 (rules e.2)).map fun x => (e.1, x)

variable {rules}

theorem map_placed (l : List (ProductId × RouteRules)) :
    (placed rules l).map (fun x => (x.1, x.2.2)) =
      l.flatMap fun e => (rules e.2).map fun r => (e.1, r) := by
  rw [placed, List.map_flatMap]
  congr 1
  funext e
  rw [List.map_map, ← map_snd_numbered 0 (rules e.2), List.map_map, map_snd_numbered]
  rfl

theorem place_lt (hcount : ∀ r ∈ m.values, (rules r).length < 2 ^ 31) {x : ProductId × Nat × γ}
    (hx : x ∈ placed rules m.entries) : x.2.1 < 2 ^ 31 := by
  obtain ⟨⟨p, r⟩, hr, hx⟩ := List.mem_flatMap.1 hx
  obtain ⟨y, hy, rfl⟩ := List.mem_map.1 hx
  have hlength := hcount r (SortedMap.mem_values.2 ⟨p, SortedMap.mem_entries.1 hr⟩)
  have hplace := (mem_numbered hy).2
  rw [Nat.zero_add] at hplace
  exact Nat.lt_trans hplace hlength

theorem placed_increasing (m : SortedMap ProductId RouteRules) :
    (placed rules m.entries).Pairwise fun x y =>
      [x.1.val, (x.2.1 : Int)] < [y.1.val, (y.2.1 : Int)] := by
  rw [placed, List.pairwise_flatMap]
  constructor
  · intro e _
    refine List.pairwise_map.2 ((numbered_increasing 0 (rules e.2)).imp fun {x y} h => ?_)
    have hplace : [(x.1 : Int)] < [(y.1 : Int)] :=
      List.cons_lt_cons_iff.2 (Or.inl (Int.ofNat_lt.2 h))
    exact List.cons_lt_cons_iff.2 (Or.inr ⟨rfl, hplace⟩)
  · refine (List.pairwise_map.1 m.increasing).imp fun {e e'} h x hx y hy => ?_
    obtain ⟨x', -, rfl⟩ := List.mem_map.1 hx
    obtain ⟨y', -, rfl⟩ := List.mem_map.1 hy
    have hproduct : e.1.val < e'.1.val := compare_lt_iff_lt.1 h
    exact List.cons_lt_cons_iff.2 (Or.inl hproduct)

end

/-! Statements that store rules, and the rows that they leave. -/

def ruleStatements (p : ProductId) (r : RouteRules) : List Statement :=
  (numbered 0 r.basic).map (fun e => basicRuleStatement p e.1 e.2) ++
    (numbered 0 r.advanced).map fun e => advancedRuleStatement p e.1 e.2

def allStatements (calls : List (ProductId × RouteRules)) : List Statement :=
  calls.flatMap fun e => ruleStatements e.1 e.2

namespace RuleTable

variable {rules : RouteRules → List γ}

theorem filed_statements (T : RuleTable arrange γ) (p : ProductId) (l : List γ) :
    filed arrange T.selection.table ((numbered 0 l).map fun e => T.statement p e.1 e.2) =
      (numbered 0 l).map fun e => T.row p e.1 e.2 := by
  rw [filed_map fun e : Nat × γ => T.filed_statement p e.1 e.2, if_pos rfl]

theorem filed_others (T : RuleTable arrange γ) (table : String) (h : T.selection.table ≠ table)
    (p : ProductId) (l : List γ) :
    filed arrange table ((numbered 0 l).map fun e => T.statement p e.1 e.2) = [] := by
  rw [filed_map fun e : Nat × γ => T.filed_statement p e.1 e.2, if_neg h]

theorem filed_basicRules (hf : Rearranges arrange) (p : ProductId) (r : RouteRules) :
    filed arrange (basicRules hf).selection.table (ruleStatements p r) =
      (numbered 0 r.basic).map fun e => (basicRules hf).row p e.1 e.2 := by
  have hown := (basicRules hf).filed_statements p r.basic
  have hne : (advancedRules arrange).selection.table ≠ (basicRules hf).selection.table := by
    show "advanced_route_rules" ≠ "basic_route_rules"
    decide
  have hothers := (advancedRules arrange).filed_others _ hne p r.advanced
  rw [ruleStatements, filed_append]
  exact (congrArg₂ (· ++ ·) hown hothers).trans (List.append_nil _)

theorem filed_advancedRules (hf : Rearranges arrange) (p : ProductId) (r : RouteRules) :
    filed arrange (advancedRules arrange).selection.table (ruleStatements p r) =
      (numbered 0 r.advanced).map fun e => (advancedRules arrange).row p e.1 e.2 := by
  have hown := (advancedRules arrange).filed_statements p r.advanced
  have hne : (basicRules hf).selection.table ≠ (advancedRules arrange).selection.table := by
    show "basic_route_rules" ≠ "advanced_route_rules"
    decide
  have hothers := (basicRules hf).filed_others _ hne p r.basic
  rw [ruleStatements, filed_append]
  exact congrArg₂ (· ++ ·) hothers hown

def rows (T : RuleTable arrange γ) (rules : RouteRules → List γ)
    (l : List (ProductId × RouteRules)) : List Row :=
  (placed rules l).map fun x => T.row x.1 x.2.1 x.2.2

theorem rows_increasing (T : RuleTable arrange γ)
    (hcount : ∀ r ∈ m.values, (rules r).length < 2 ^ 31) :
    (T.rows rules m.entries).Pairwise fun a b => T.selection.rank a < T.selection.rank b := by
  refine List.pairwise_map.2 ((placed_increasing m).imp_of_mem fun {x y} hx hy h => ?_)
  rw [T.rank_row, T.rank_row, Int32.toInt_ofNat_of_lt (place_lt hcount hx),
    Int32.toInt_ofNat_of_lt (place_lt hcount hy)]
  exact h

section

variable (T : RuleTable arrange γ) (hfiled : ∀ p r, filed arrange T.selection.table
  (ruleStatements p r) = (numbered 0 (rules r)).map fun e => T.row p e.1 e.2)

include hfiled

theorem filed_perm (hcalls : calls.Perm m.entries) :
    ((filed arrange T.selection.table (allStatements calls)).filter
      (T.selection.admits T.query.args)).Perm (T.rows rules m.entries) := by
  have hadmits : T.selection.admits T.query.args = fun _ => true := by
    rw [T.query_args]
    rfl
  have hall : filed arrange T.selection.table (allStatements calls) = T.rows rules calls := by
    rw [allStatements, filed_flatMap, rows, placed, List.map_flatMap]
    simp only [hfiled, List.map_map, Function.comp_def]
  rw [hadmits, List.filter_true, hall]
  exact (hcalls.flatMap_right _).map _

/-- What the query gets are the rows of the map in its own order, with whatever else is in them. -/
theorem answers_iff (hcount : ∀ r ∈ m.values, (rules r).length < 2 ^ 31)
    (hcalls : calls.Perm m.entries) {shown : List Row} :
    Answers arrange (allStatements calls) T.query shown ↔
      List.Forall₂ T.selection.Shows (T.rows rules m.entries) shown := by
  have hperm := T.filed_perm hfiled hcalls
  have hincreasing := T.rows_increasing hcount
  constructor
  · rintro ⟨sel, stored, hsel, hstored, hordered, hshown⟩
    obtain rfl : T.selection = sel := Option.some.inj (T.query_text.symm.trans hsel)
    rwa [← eq_of_inOrder (hstored.trans hperm) hordered hincreasing]
  · exact fun hshown =>
      ⟨T.selection, _, T.query_text, hperm.symm, hincreasing.imp le_of_lt, hshown⟩

theorem mapM_read (hcount : ∀ r ∈ m.values, (rules r).length < 2 ^ 31)
    (hcalls : calls.Perm m.entries) {shown : List Row}
    (hanswer : Answers arrange (allStatements calls) T.query shown) :
    shown.mapM T.read = some (m.entries.flatMap fun e => (rules e.2).map fun r => (e.1, r)) := by
  have hshown := (T.answers_iff hfiled hcount hcalls).1 hanswer
  rw [rows, List.forall₂_map_left_iff] at hshown
  rw [← map_placed]
  clear hanswer
  generalize placed rules m.entries = l at hshown ⊢
  induction hshown with
  | nil => rfl
  | cons hshows _ ih =>
    rw [List.mapM_cons, T.read_shown _ _ _ _ hshows, ih]
    rfl

end

end RuleTable

theorem completes_createRouteRules (p : ProductId) (r : RouteRules) :
    Completes (ruleStatements p r) (exchange (.createRouteRules p r)) () := by
  have hbasic := completes_mapM (f := fun e => insertBasicRule p e.1 e.2)
    (fun e => completes_run _) (numbered 0 r.basic)
  have hadvanced := completes_mapM (f := fun e => insertAdvancedRule p e.1 e.2)
    (fun e => completes_run _) (numbered 0 r.advanced)
  have hlast := hadvanced.bind (k := fun _ => pure ()) (completes_pure _)
  rw [List.append_nil] at hlast
  exact hbasic.bind hlast

theorem exchange_fetchRouteRules (product : Option ProductId) {s : Session}
    {basicRows advancedRows : List Row} {rest : List Reply} {basic : List (ProductId × BasicRule)}
    {advanced : List (ProductId × AdvancedRule)} (halive : s.alive = true)
    (hreplies : s.replies = .rows basicRows :: .rows advancedRows :: rest)
    (hbasic : basicRows.mapM basicRule? = some basic)
    (hadvanced : advancedRows.mapM advancedRule? = some advanced) :
    exchange (.fetchRouteRules product) s = (.ok (groupRules basic advanced), { s with
      replies := rest
      sent := s.sent ++ [basicRulesQuery product, advancedRulesQuery product] }) := by
  obtain ⟨alive, replies, refused, sent⟩ := s
  obtain rfl : alive = true := halive
  refine (run_bind_ok (fetchAll_rows rfl hreplies hbasic)).trans ?_
  refine (run_bind_ok (fetchAll_rows rfl rfl hadvanced)).trans ?_
  rw [List.append_assoc]
  rfl

def saving (calls : List (ProductId × RouteRules)) : Work (List Unit) :=
  Work.forAll (fun e => Work.ask (.createRouteRules e.1 e.2)) calls

def savedRules (calls : List (ProductId × RouteRules)) : Work (SortedMap ProductId RouteRules) :=
  saving calls >>= fun _ => Work.ask (.fetchRouteRules none)

theorem completes_saving (calls : List (ProductId × RouteRules)) :
    Completes (allStatements calls) (transact (saving calls)) (calls.map fun _ => ()) := by
  induction calls with
  | nil => exact completes_pure []
  | cons e calls ih =>
    have hsaving : saving (e :: calls) = Work.ask (.createRouteRules e.1 e.2) >>= fun u =>
      saving calls >>= fun us => pure (u :: us) := rfl
    have hrest := ih.bind (k := fun us => transact (pure (() :: us))) (completes_pure _)
    rw [List.append_nil, ← transact_bind] at hrest
    rw [hsaving, transact_bind, transact_ask]
    exact (completes_createRouteRules e.1 e.2).bind hrest

theorem yields_saving (t : Tables) (calls : List (ProductId × RouteRules)) :
    Work.Yields Tables.answer t (saving calls) (calls.map fun _ => ())
      { t with routeRules := calls.foldl RouteRules.addTo t.routeRules } := by
  induction calls generalizing t with
  | nil => exact Work.yields_forAll_nil.2 ⟨rfl, rfl⟩
  | cons e calls ih =>
    exact Work.yields_forAll_cons.2 ⟨(), _, Work.yields_ask.2 rfl, _, ih _, rfl⟩

theorem yields_fetchRouteRules (t : Tables) :
    Work.Yields Tables.answer t (Work.ask (.fetchRouteRules none)) t.routeRules t := by
  refine Work.yields_ask.2 ?_
  have hall : t.routeRules.filter (fun id _ => (none : Option ProductId).all (id = ·)) =
      t.routeRules := by
    refine SortedMap.ext fun p => ?_
    rw [SortedMap.get?_filter]
    cases t.routeRules.get? p <;> rfl
  rw [Tables.answer, hall]

/-- Rules of any products, put one product at a time in any order, come back from a database as they
are, and are what the tables in memory give of the same requests. -/
theorem savedRules_come_back (hf : Rearranges arrange) (m : SortedMap ProductId RouteRules)
    (hrules : ∀ r ∈ m.values, r.basic ≠ [] ∨ r.advanced ≠ [])
    (hcount : ∀ r ∈ m.values, r.basic.length < 2 ^ 31 ∧ r.advanced.length < 2 ^ 31)
    (hcalls : calls.Perm m.entries) :
    (∀ (s : Session) (acks : List Reply) (basic advanced : List Row) (rest : List Reply),
      s.alive = true → acks.length = (allStatements calls).length →
      (∀ reply ∈ acks, reply.isDone = true) →
      Answers arrange (allStatements calls) (basicRulesQuery none) basic →
      Answers arrange (allStatements calls) (advancedRulesQuery none) advanced →
      s.replies = acks ++ .rows basic :: .rows advanced :: rest →
      transact (savedRules calls) s = (.ok m, { s with
        replies := rest
        sent := s.sent ++ allStatements calls ++ [basicRulesQuery none, advancedRulesQuery none] })) ∧
    ∀ t : Tables, t.routeRules = ∅ → ((savedRules calls).run Tables.answer t).1 = .ok m := by
  constructor
  · intro s acks basic advanced rest halive hlength hdone hbasic hadvanced hreplies
    have hsaved := completes_saving calls s acks _ halive hreplies hlength hdone
    have hbasics := (basicRules hf).mapM_read (RuleTable.filed_basicRules hf)
      (fun r hr => (hcount r hr).1) hcalls hbasic
    have hadvanceds := (advancedRules arrange).mapM_read (RuleTable.filed_advancedRules hf)
      (fun r hr => (hcount r hr).2) hcalls hadvanced
    have hgroups := RouteRules.groupRules_entries (m := m) fun r hr => by
      rintro rfl
      exact (hrules _ hr).elim (fun h => h rfl) fun h => h rfl
    rw [savedRules, transact_bind, run_bind_ok hsaved, transact_ask]
    -- The acknowledgements are used up, so the queries get the rows.
    have hfetched := exchange_fetchRouteRules none (s := { s with
      replies := .rows basic :: .rows advanced :: rest
      sent := s.sent ++ allStatements calls }) halive rfl hbasics hadvanceds
    rwa [hgroups] at hfetched
  · intro t hempty
    have hsaved := yields_saving t calls
    rw [hempty, RouteRules.foldl_addTo_entries hcalls] at hsaved
    have hread : Work.Yields Tables.answer t (savedRules calls) m { t with routeRules := m } :=
      Work.yields_bind.2 ⟨_, _, hsaved, yields_fetchRouteRules _⟩
    exact congrArg Prod.fst hread

def twoShops : List (ProductId × RouteRules) :=
  [(⟨5⟩, ⟨[⟨["b.example"], ["/img"], "static", some ⟨7⟩, "pictures"⟩, ⟨["b.example"], [], "web", none, ""⟩],
      []⟩),
    (⟨2⟩, ⟨[⟨["a.example"], [], "web", some ⟨6⟩, ""⟩], [⟨"rest", "default_t()", "web", some ⟨6⟩, ""⟩]⟩)]

theorem twoShops_come_back :
    (transact (savedRules twoShops) (Session.start
      [.affected 1, .affected 1, .affected 1, .affected 1,
        .rows [
          [("product_id", .int8 2), ("host_names", .json (.arr [.str "a.example"])),
            ("paths", .json (.arr [])), ("cluster_id", .int8 6), ("cluster_name", .text "web"),
            ("description", .text "")],
          [("product_id", .int8 5), ("host_names", .json (.arr [.str "b.example"])),
            ("paths", .json (.arr [.str "/img"])), ("cluster_id", .int8 7),
            ("cluster_name", .text "static"), ("description", .text "pictures")],
          [("product_id", .int8 5), ("host_names", .json (.arr [.str "b.example"])),
            ("paths", .json (.arr [])), ("cluster_id", .null), ("cluster_name", .text "web"),
            ("description", .text "")]],
        .rows [
          [("product_id", .int8 2), ("name", .text "rest"), ("expression", .text "default_t()"),
            ("cluster_id", .int8 6), ("cluster_name", .text "web"), ("description", .text "")]]]
      [])).1 = .ok (SortedMap.ofList twoShops) ∧
    ((savedRules twoShops).run Tables.answer Tables.start).1 = .ok (SortedMap.ofList twoShops) := by
  have hrules : ∀ r ∈ (SortedMap.ofList twoShops).values, r.basic ≠ [] ∨ r.advanced ≠ [] := by
    decide +kernel
  have hcount : ∀ r ∈ (SortedMap.ofList twoShops).values,
      r.basic.length < 2 ^ 31 ∧ r.advanced.length < 2 ^ 31 := by decide +kernel
  have hcalls : twoShops.Perm (SortedMap.ofList twoShops).entries := by decide +kernel
  have hentries : (SortedMap.ofList twoShops).entries = twoShops.reverse := by decide +kernel
  obtain ⟨hdatabase, hmemory⟩ := savedRules_come_back rearranges_id _ hrules hcount hcalls
  refine ⟨congrArg Prod.fst (hdatabase _ [.affected 1, .affected 1, .affected 1, .affected 1] _ _ []
    rfl rfl (by decide) ?_ ?_ rfl), hmemory _ rfl⟩
  · refine ((basicRules rearranges_id).answers_iff (RuleTable.filed_basicRules rearranges_id)
      (fun r hr => (hcount r hr).1) hcalls).2 ?_
    rw [hentries]
    refine .cons ?_ (.cons ?_ (.cons ?_ .nil)) <;>
      simp [Selection.Shows, basicRules, Row.cell?, clusterCell, encode]
  · refine ((advancedRules id).answers_iff (RuleTable.filed_advancedRules rearranges_id)
      (fun r hr => (hcount r hr).2) hcalls).2 ?_
    rw [hentries]
    refine .cons ?_ .nil
    simp [Selection.Shows, advancedRules, Row.cell?, clusterCell]

end FleetControl.Store.Database
