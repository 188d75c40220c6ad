import FleetControl.Proofs.Generated

/-!
The default certificate. As soon as there are certificates exactly one of them is the default, in
whatever order they are created, chosen and deleted; the file of certificates names it, and names none
only while it lists none.
-/

namespace FleetControl

theorem Certificate.Draft.name_ne_empty {d : Certificate.Draft} (h : d.findings.refusal? = none) :
    d.name ≠ "" := by
  simp only [Findings.refusal?_eq_none, findings, Findings.isClean_append,
    Findings.isClean_ofField, Validation.entityName_eq_none] at h
  exact Validation.ne_empty_of_isEntityName h.1.1.1

namespace Store

open Control Export Files

def IsDefault (certificates : SortedMap CertificateId Certificate) (i : CertificateId) : Prop :=
  ∃ c, certificates.get? i = some c ∧ c.isDefault = true

structure NamesDefault (certificates : SortedMap CertificateId Certificate) (conf : ServerCertConf) :
    Prop where
  default : ∀ i c, certificates.get? i = some c → c.isDefault = true → conf.defaultName = c.name
  listed : conf.certConf.keys ≠ [] → conf.defaultName ∈ conf.certConf.keys
  empty : conf.defaultName = "" ↔ conf.certConf.keys = []
  keys : conf.certConf.keys.Perm (certificates.values.map Certificate.name)
  files : ∀ i c, certificates.get? i = some c →
    conf.certConf.get? c.name = some ⟨c.certFilePath, c.keyFilePath, none⟩

/-! Which certificate is the default after each way of writing to the table. -/

section

variable {bound : Int} {certificates : SortedMap CertificateId Certificate} {c : Certificate}
  {i j : CertificateId}

theorem isDefault_insert (hfresh : certificates.get? i = none) (hc : c.isDefault = false) :
    IsDefault (certificates.insert i c) j ↔ IsDefault certificates j := by
  rw [IsDefault, IsDefault, SortedMap.get?_insert]
  split
  · rename_i hj
    rw [hj, hfresh]
    constructor
    · rintro ⟨_, hget, hdefault⟩
      cases hget
      rw [hc] at hdefault
      cases hdefault
    · rintro ⟨_, hget, -⟩
      cases hget
  · rfl

theorem isDefault_erase : IsDefault (certificates.erase i) j ↔ j ≠ i ∧ IsDefault certificates j := by
  rw [IsDefault, IsDefault, SortedMap.get?_erase]
  split
  · rename_i hj
    simp [hj]
  · rename_i hj
    simp [hj]

theorem isDefault_choose (hi : Indexed bound Certificate.id certificates)
    (hget : certificates.get? i = some c) :
    IsDefault (certificates.map fun _ x => { x with isDefault := x.id = i }) j ↔ j = i := by
  rw [IsDefault, SortedMap.get?_map]
  constructor
  · rintro ⟨_, hmap, hdefault⟩
    obtain ⟨d, hd, rfl⟩ := Option.map_eq_some_iff.1 hmap
    rw [← hi.own hd]
    exact of_decide_eq_true hdefault
  · rintro rfl
    exact ⟨_, by rw [hget, Option.map_some], decide_eq_true (hi.own hget)⟩

end

/-- Certificates have names, and once there is one, exactly one is the default. -/
structure Certified (certificates : SortedMap CertificateId Certificate) : Prop where
  named : ∀ {i c}, certificates.get? i = some c → c.name ≠ ""
  chosen : ∀ {i c}, certificates.get? i = some c → ∃ j, IsDefault certificates j
  sole : ∀ {i j}, IsDefault certificates i → IsDefault certificates j → i = j

namespace Certified

variable {bound : Int} {certificates : SortedMap CertificateId Certificate} {c : Certificate}
  {i : CertificateId}

theorem empty : Certified ∅ :=
  ⟨fun hget => by simp at hget, fun hget => by simp at hget,
    fun ⟨_, hget, _⟩ => by simp at hget⟩

theorem choose (hnamed : ∀ {i c}, certificates.get? i = some c → c.name ≠ "")
    (hi : Indexed bound Certificate.id certificates) (hget : certificates.get? i = some c) :
    Certified (certificates.map fun _ x => { x with isDefault := x.id = i }) := by
  constructor
  · intro j d hd
    rw [SortedMap.get?_map] at hd
    obtain ⟨d₀, hd₀, rfl⟩ := Option.map_eq_some_iff.1 hd
    exact hnamed (c := d₀) hd₀
  · intro _ _ _
    exact ⟨i, (isDefault_choose hi hget).2 rfl⟩
  · intro j k hj hk
    rw [(isDefault_choose hi hget).1 hj, (isDefault_choose hi hget).1 hk]

theorem insert (h : Certified certificates) (hfresh : certificates.get? i = none)
    (hc : c.isDefault = false) (hname : c.name ≠ "") {j : CertificateId} {d : Certificate}
    (hother : certificates.get? j = some d) : Certified (certificates.insert i c) := by
  constructor
  · intro k e he
    rcases SortedMap.get?_insert_eq_some.1 he with ⟨-, rfl⟩ | ⟨-, he⟩
    · exact hname
    · exact h.named he
  · intro _ _ _
    obtain ⟨k, hk⟩ := h.chosen hother
    exact ⟨k, (isDefault_insert hfresh hc).2 hk⟩
  · intro k l hk hl
    exact h.sole ((isDefault_insert hfresh hc).1 hk) ((isDefault_insert hfresh hc).1 hl)

theorem erase (h : Certified certificates) (hget : certificates.get? i = some c)
    (hspare : c.isDefault = true → certificates.size ≤ 1) : Certified (certificates.erase i) := by
  constructor
  · exact fun he => h.named (SortedMap.get?_erase_eq_some.1 he).2
  · intro k e he
    obtain ⟨hk, hkept⟩ := SortedMap.get?_erase_eq_some.1 he
    obtain ⟨j, hj⟩ := h.chosen hkept
    refine ⟨j, isDefault_erase.2 ⟨?_, hj⟩⟩
    rintro rfl
    obtain ⟨d, hd, hdefault⟩ := hj
    rw [hget] at hd
    cases hd
    exact hk (SortedMap.eq_of_size_le_one (hspare hdefault) hkept hget)
  · intro j k hj hk
    exact h.sole (isDefault_erase.1 hj).2 (isDefault_erase.1 hk).2

variable {t t' : Tables}

theorem effect {ignoreReadiness : Bool} {call : Call} (h : Certified t.certificates) (hn : t.Numbered)
    (he : Effect ignoreReadiness t call t') : Certified t'.certificates := by
  cases he with
  | @certificateCreated draft _ valid _ marked =>
    have hname : draft.name ≠ "" := Certificate.Draft.name_ne_empty valid
    subst marked
    dsimp only
    split
    · have hnamed : ∀ {i c}, (t.certificates.insert ⟨t.nextId⟩
          ({ draft with isDefault := false }.withId ⟨t.nextId⟩)).get? i = some c → c.name ≠ "" := by
        intro i c hget
        rcases SortedMap.get?_insert_eq_some.1 hget with ⟨-, rfl⟩ | ⟨-, hget⟩
        · exact hname
        · exact h.named hget
      exact .choose hnamed (hn.advance.certificates.insert rfl (Int.lt_succ t.nextId))
        (SortedMap.get?_insert_self _ _ _)
    · rename_i hunmarked
      obtain ⟨e, he⟩ : ∃ e, e ∈ t.certificates.entries := by
        apply List.exists_mem_of_ne_nil
        rintro hnil
        simp [SortedMap.isEmpty, hnil] at hunmarked
      exact h.insert hn.certificates.get?_next rfl hname (SortedMap.mem_entries.1 he)
  | defaultCertificateSet stored => exact .choose h.named hn.certificates stored
  | certificateDeleted stored spare => exact h.erase stored spare
  | _ => exact h

theorem defaultName (h : Certified t.certificates) {name : String}
    (hname : IsDefaultName t name) (hget : t.certificates.get? i = some c)
    (hdefault : c.isDefault = true) : name = c.name := by
  rcases hname with ⟨-, hnone⟩ | ⟨j, d, hd, hchosen, rfl, -⟩
  · rw [hnone i c hget] at hdefault
    cases hdefault
  · obtain rfl := h.sole ⟨c, hget, hdefault⟩ ⟨d, hd, hchosen⟩
    rw [hd] at hget
    rw [Option.some.inj hget]

end Certified

namespace Tables

variable {t : Tables}

theorem Reachable.certified (h : t.Reachable) : Certified t.certificates :=
  h.invariant (P := fun t => Certified t.certificates) Certified.empty
    fun hr hi he => hi.effect hr.numbered he

/-! The file. -/

theorem Consistent.keys_perm (h : Consistent t) {f : ServerCerts} (hf : ShowsCertificates t f) :
    f.config.certConf.keys.Perm (t.certificates.values.map Certificate.name) := by
  have hkey : ∀ n, n ∈ f.config.certConf.keys ↔ n ∈ t.certificates.values.map Certificate.name := by
    intro n
    rw [SortedMap.mem_keys, List.mem_map]
    constructor
    · rintro ⟨files, hfiles⟩
      obtain ⟨i, c, hc, hname, -⟩ := (hf.certConf n files).1 hfiles
      exact ⟨c, SortedMap.mem_values.2 ⟨i, hc⟩, hname⟩
    · rintro ⟨c, hc, hname⟩
      obtain ⟨i, hget⟩ := SortedMap.mem_values.1 hc
      exact ⟨_, (hf.certConf n _).2 ⟨i, c, hget, hname, rfl⟩⟩
  have hnames := h.named.certificates.nodup_values
  exact (List.perm_ext_iff_of_nodup (SortedMap.nodup_keys _) hnames).2 hkey

theorem Consistent.namesDefault (h : Consistent t) (hcertified : Certified t.certificates)
    {f : ServerCerts} (hf : ShowsCertificates t f) : NamesDefault t.certificates f.config := by
  have hkeys := h.keys_perm hf
  have hnamed : ∀ i c, t.certificates.get? i = some c → c.isDefault = true →
      f.config.defaultName = c.name :=
    fun _ _ hget hdefault => hcertified.defaultName hf.defaultName hget hdefault
  have hchosen : f.config.certConf.keys ≠ [] →
      ∃ i c, t.certificates.get? i = some c ∧ c.isDefault = true := by
    intro hne
    obtain ⟨n, hn⟩ := List.exists_mem_of_ne_nil _ hne
    obtain ⟨c, hc, -⟩ := List.mem_map.1 (hkeys.mem_iff.1 hn)
    obtain ⟨i, hget⟩ := SortedMap.mem_values.1 hc
    exact hcertified.chosen hget
  refine ⟨hnamed, ?_, ?_, hkeys, fun i c hget => (hf.certConf _ _).2 ⟨i, c, hget, rfl, rfl⟩⟩
  · intro hne
    obtain ⟨i, c, hget, hdefault⟩ := hchosen hne
    rw [hnamed i c hget hdefault]
    exact hkeys.mem_iff.2 (List.mem_map_of_mem (SortedMap.mem_values.2 ⟨i, hget⟩))
  · constructor
    · intro hempty
      by_contra hne
      obtain ⟨i, c, hget, hdefault⟩ := hchosen hne
      rw [hnamed i c hget hdefault] at hempty
      exact hcertified.named hget hempty
    · intro hnil
      rcases hf.defaultName with ⟨hempty, -⟩ | ⟨i, c, hget, -, -, -⟩
      · exact hempty
      · have hmem := hkeys.mem_iff.2 (List.mem_map_of_mem (SortedMap.mem_values.2 ⟨i, hget⟩))
        rw [hnil] at hmem
        cases hmem

/-- Whatever was called, with certificates there is one default, and the file names it. -/
theorem run_certified (events : List Event) (defaultProduct : Option String) :
    (∀ i c, (start.run events).certificates.get? i = some c →
      ∃! j, IsDefault (start.run events).certificates j) ∧
    ∃ f, Topic.certificate.generated defaultProduct (start.run events) = .ok f ∧
      NamesDefault (start.run events).certificates f.config := by
  have hreachable : (start.run events).Reachable := ⟨events, rfl⟩
  have hcertified := hreachable.certified
  constructor
  · intro i c hget
    obtain ⟨j, hj⟩ := hcertified.chosen hget
    exact ⟨j, hj, fun k hk => hcertified.sole hk hj⟩
  · have hpresent : Topic.certificate.missing? defaultProduct (start.run events) = none := rfl
    obtain ⟨f, hgenerated, hshows⟩ := Topic.generated_shows hreachable.consistent hpresent
    exact ⟨f, hgenerated, hreachable.consistent.namesDefault hcertified hshows⟩

end Tables
end Store
end FleetControl
