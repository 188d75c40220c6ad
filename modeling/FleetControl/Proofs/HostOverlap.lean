import FleetControl.Proofs.NormalForm

/-!
What two names have in common. A valid name covers some host, and two valid names conflict exactly
when there is a host that both of them cover.
-/

namespace FleetControl.Hostname

open Text

variable {a b host name : String}

def IsHost (name : String) : Prop := ∀ l ∈ splitOn '.' name.toList, isLabel l = true

theorem eq_star_cons_of_isWildcard (h : isWildcard name = true) :
    ∃ body, name.toList = '*' :: '.' :: body := by
  obtain ⟨body, hbody⟩ := List.isPrefixOf_iff_prefix.1 h
  exact ⟨body, hbody.symm⟩

theorem IsHost.not_isWildcard (h : IsHost name) : isWildcard name = false := by
  by_contra hwild
  obtain ⟨body, hbody⟩ := eq_star_cons_of_isWildcard (Bool.eq_true_of_not_eq_false hwild)
  have hstar : ['*'] ∈ splitOn '.' name.toList := by
    rw [hbody]
    exact List.mem_cons_self
  have hlabel := h _ hstar
  rw [not_isLabel_star] at hlabel
  cases hlabel

/-! Valid names and their stored form. -/

theorem labels_normalize (h : isValid name = true) : labels (normalize name) = labels name :=
  (settled_of_isValid h).labels_normalize

theorem labels_eq_of_normalize (h : normalize a = normalize b) : labels a = labels b := by
  have hform : normalForm a.toList = normalForm b.toList := String.ofList_injective h
  rw [labels, hform, labels]

theorem covers_normalize (ha : isValid a = true) : covers (normalize a) host = covers a host :=
  (settled_of_isValid ha).replaceable.pattern host

theorem conflicts_normalize (ha : isValid a = true) (hb : isValid b = true) :
    conflicts (normalize a) (normalize b) = conflicts a b := by
  rw [(settled_of_isValid ha).replaceable.existing, (settled_of_isValid hb).replaceable.candidate]

/-! A host under a name. -/

/-- The characters of a host that a name with this normal form covers: the name itself, with some
label where a wildcard has its star. -/
def hostForm (form : List Char) : List Char :=
  match ['*', '.'].isPrefixOf? form with
  | some body => 'a' :: '.' :: body
  | none => form

def hostUnder (name : String) : String := String.ofList (hostForm (normalForm name.toList))

theorem hostForm_wildcard (body : List Char) :
    hostForm ('*' :: '.' :: body) = 'a' :: '.' :: body := rfl

theorem hostForm_plain (h : isWildcard (normalize name) = false) :
    hostForm (normalForm name.toList) = normalForm name.toList := by
  have hnone : ['*', '.'].isPrefixOf? (normalForm name.toList) = none := by
    by_contra hsome
    obtain ⟨body, hbody⟩ := Option.ne_none_iff_exists'.1 hsome
    have hform := isPrefixOf?_eq_some.1 hbody
    rw [isWildcard, normalize, String.toList_ofList, hform] at h
    cases h
  rw [hostForm, hnone]

theorem normalForm_eq_star_cons (h : isWildcard (normalize name) = true) :
    ∃ body, normalForm name.toList = '*' :: '.' :: body := by
  have hform := eq_star_cons_of_isWildcard h
  rw [normalize, String.toList_ofList] at hform
  exact hform

theorem normalForm_hostForm (h : isValid name = true) :
    normalForm (hostForm (normalForm name.toList)) = hostForm (normalForm name.toList) := by
  cases hwild : isWildcard (normalize name) with
  | false => rw [hostForm_plain hwild, normalForm_normalize h]
  | true =>
    obtain ⟨body, hform⟩ := normalForm_eq_star_cons hwild
    rw [hform, hostForm_wildcard]
    -- Characters of the body are characters of the name.
    have hmem : ∀ c ∈ body, c ∈ normalForm name.toList := by
      intro c hc
      rw [hform]
      exact List.mem_cons_of_mem _ (List.mem_cons_of_mem _ hc)
    have hblank : ∀ c ∈ 'a' :: '.' :: body, isBlank c = false := by
      intro c hc
      rcases List.mem_cons.1 hc with rfl | hc
      · rfl
      rcases List.mem_cons.1 hc with rfl | hc
      · rfl
      exact isBlank_of_mem_normalForm h (hmem c hc)
    have hlower : ∀ c ∈ 'a' :: '.' :: body, c.toLower = c := by
      intro c hc
      rcases List.mem_cons.1 hc with rfl | hc
      · rfl
      rcases List.mem_cons.1 hc with rfl | hc
      · rfl
      exact toLower_normalForm (hmem c hc)
    have hdot : ∀ c, ('a' :: '.' :: body).getLast? = some c → c ≠ '.' := by
      intro c hc
      have hlast : (normalForm name.toList).getLast? = some c := by
        rw [hform, List.getLast?_cons_cons, ← hc, List.getLast?_cons_cons]
      exact getLast?_normalForm hlast
    exact normalForm_eq_self (fun c hc => hblank c (List.mem_of_mem_head? hc))
      (fun c hc => hblank c (List.mem_of_getLast? hc)) hdot hlower

theorem labels_hostUnder (h : isValid name = true) :
    labels (hostUnder name) = splitOn '.' (hostUnder name).toList := by
  rw [labels, hostUnder, String.toList_ofList, normalForm_hostForm h]

theorem labels_hostUnder_plain (h : isValid name = true)
    (hplain : isWildcard (normalize name) = false) : labels (hostUnder name) = labels name := by
  rw [labels_hostUnder h, hostUnder, String.toList_ofList, hostForm_plain hplain, labels]

theorem labels_hostUnder_wildcard (h : isValid name = true) {ls : List (List Char)}
    (hwild : isWildcard (normalize name) = true) (hls : labels name = ['*'] :: ls) :
    labels (hostUnder name) = ['a'] :: ls := by
  obtain ⟨body, hform⟩ := normalForm_eq_star_cons hwild
  have hbody : splitOn '.' body = ls := by
    rw [labels, hform] at hls
    exact (List.cons.inj hls).2
  rw [labels_hostUnder h, hostUnder, String.toList_ofList, hform, hostForm_wildcard, ← hbody]
  rfl

theorem isHost_hostUnder (h : isValid name = true) : IsHost (hostUnder name) := by
  intro l hl
  rw [← labels_hostUnder h] at hl
  rcases labels_of_isValid h with ⟨hwild, ls, hls, hall⟩ | ⟨hplain, hall⟩
  · rw [labels_hostUnder_wildcard h hwild hls] at hl
    rcases List.mem_cons.1 hl with rfl | hl
    · decide
    · exact hall l hl
  · rw [labels_hostUnder_plain h hplain] at hl
    exact hall l hl

theorem covers_hostUnder (h : isValid name = true) : covers name (hostUnder name) = true := by
  rcases labels_of_isValid h with ⟨hwild, ls, hls, -⟩ | ⟨hplain, -⟩
  · rw [covers, hls, labels_hostUnder_wildcard h hwild hls]
    exact labelsMatch_iff.2 ⟨['a'], rfl, Or.inl rfl⟩
  · exact covers_of_labels (labels_hostUnder_plain h hplain)

/-! Conflicts are hosts in common. -/

theorem conflicts_of_covers_both (ha : isValid a = true) (hb : isValid b = true)
    (hca : covers a host = true) (hcb : covers b host = true) : conflicts a b = true := by
  by_contra hclear
  rw [Bool.not_eq_true, ← conflicts_normalize ha hb] at hclear
  rw [← covers_normalize ha] at hca
  rw [← covers_normalize hb] at hcb
  exact not_covers_both (registered_normalize ha) (registered_normalize hb) hclear hca hcb

theorem cases_of_conflicts (h : conflicts a b = true) :
    normalize a = normalize b ∨
    (isWildcard (normalize b) = false ∧ covers (normalize a) (normalize b) = true) ∨
    (isWildcard (normalize a) = false ∧ covers (normalize b) (normalize a) = true) := by
  by_cases hab : normalize a = normalize b
  · exact Or.inl hab
  · rw [conflicts, if_neg hab] at h
    cases hwa : isWildcard (normalize a) <;> cases hwb : isWildcard (normalize b) <;>
      simp only [hwa, hwb] at h
    · cases h
    · exact Or.inr (Or.inr ⟨rfl, h⟩)
    · exact Or.inr (Or.inl ⟨rfl, h⟩)
    · cases h

theorem covers_hostUnder_plain (ha : isValid a = true) (hb : isValid b = true)
    (hplain : isWildcard (normalize b) = false)
    (hcovers : covers (normalize a) (normalize b) = true) : covers a (hostUnder b) = true := by
  rw [covers_normalize ha, covers, labels_normalize hb] at hcovers
  rw [covers, labels_hostUnder_plain hb hplain]
  exact hcovers

theorem exists_host_of_conflicts (ha : isValid a = true) (hb : isValid b = true)
    (h : conflicts a b = true) :
    ∃ host, IsHost host ∧ covers a host = true ∧ covers b host = true := by
  rcases cases_of_conflicts h with hsame | ⟨hplain, hcovers⟩ | ⟨hplain, hcovers⟩
  · have hcovers : covers b (hostUnder a) = true := by
      rw [covers, ← labels_eq_of_normalize hsame]
      exact covers_hostUnder ha
    exact ⟨hostUnder a, isHost_hostUnder ha, covers_hostUnder ha, hcovers⟩
  · have hboth := covers_hostUnder_plain ha hb hplain hcovers
    exact ⟨hostUnder b, isHost_hostUnder hb, hboth, covers_hostUnder hb⟩
  · have hboth := covers_hostUnder_plain hb ha hplain hcovers
    exact ⟨hostUnder a, isHost_hostUnder ha, covers_hostUnder ha, hboth⟩

/-- In which order two names come does not matter to a conflict, and valid names are in conflict
exactly when they have a host in common. Any text that both of them cover is enough for one. -/
theorem conflicts_iff_common_host :
    (∀ a b, conflicts a b = conflicts b a) ∧
    ∀ a b, isValid a = true → isValid b = true →
      (conflicts a b = true ↔
        ∃ host, IsHost host ∧ isWildcard host = false ∧
          covers a host = true ∧ covers b host = true) ∧
      ∀ text, covers a text = true → covers b text = true → conflicts a b = true := by
  constructor
  · exact conflicts_comm
  · intro a b ha hb
    have hcovered : ∀ text, covers a text = true → covers b text = true → conflicts a b = true :=
      fun _ => conflicts_of_covers_both ha hb
    constructor
    · constructor
      · intro hconflict
        obtain ⟨host, hhost, hca, hcb⟩ := exists_host_of_conflicts ha hb hconflict
        exact ⟨host, hhost, hhost.not_isWildcard, hca, hcb⟩
      · rintro ⟨host, -, -, hca, hcb⟩
        exact hcovered host hca hcb
    · exact hcovered

theorem conflicts_wildcard_plain :
    isValid "*.Shop.example" = true ∧ isValid "www.shop.example." = true ∧
    ∃ host, IsHost host ∧ isWildcard host = false ∧
      covers "*.Shop.example" host = true ∧ covers "www.shop.example." host = true := by
  have hwild : isValid "*.Shop.example" = true := by decide +kernel
  have hplain : isValid "www.shop.example." = true := by decide +kernel
  have hconflict : conflicts "*.Shop.example" "www.shop.example." = true := by decide +kernel
  have hiff := (conflicts_iff_common_host.2 _ _ hwild hplain).1
  exact ⟨hwild, hplain, hiff.1 hconflict⟩

end FleetControl.Hostname
