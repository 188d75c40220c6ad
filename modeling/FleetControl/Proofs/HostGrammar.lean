import FleetControl.Proofs.HostOverlap

/-!
The grammar of valid names. A name is valid exactly if it is a word of the grammar, written in letters of
either case, between blanks and with any number of dots after it. The form in which a name is stored is
itself valid, does not change when it is normalized again, and covers the same hosts.
-/

namespace FleetControl.Hostname

open Text

variable {c : Char} {cs l body : List Char} {name : String}

def LabelChar (c : Char) : Prop :=
  ('A' ≤ c ∧ c ≤ 'Z') ∨ ('a' ≤ c ∧ c ≤ 'z') ∨ ('0' ≤ c ∧ c ≤ '9') ∨ c = '-' ∨ c = '_'

structure Label (l : List Char) : Prop where
  size : 1 ≤ l.length ∧ l.length ≤ 63
  chars : ∀ c ∈ l, LabelChar c
  head : l.head? ≠ some '-'
  last : l.getLast? ≠ some '-'

inductive Dotted : List Char → Prop
  | single {l : List Char} : Label l → Dotted l
  | cons {l rest : List Char} : Label l → Dotted rest → Dotted (l ++ '.' :: rest)

/-- The words of the grammar. The wildcard does not count to the size. -/
inductive Word : List Char → Prop
  | plain {body : List Char} : Dotted body → (String.ofList body).utf8ByteSize ≤ 253 → Word body
  | wildcard {body : List Char} : Dotted body → (String.ofList body).utf8ByteSize ≤ 253 →
    Word ('*' :: '.' :: body)

/-! Labels. -/

theorem isLabelChar_iff : isLabelChar c = true ↔ LabelChar c := by
  have hle (a b : Char) : a ≤ b ↔ a.val ≤ b.val := Iff.rfl
  simp only [isLabelChar, LabelChar, Char.isAlphanum, Char.isAlpha, Char.isUpper, Char.isLower,
    Char.isDigit, Bool.or_eq_true, Bool.and_eq_true, decide_eq_true_eq, ge_iff_le, hle, or_assoc]

theorem isLabel_iff : isLabel l = true ↔ Label l := by
  simp only [isLabel, Bool.and_eq_true, List.all_eq_true, isLabelChar_iff, bne_iff_ne, ne_eq,
    Bool.not_eq_true', List.isEmpty_eq_false_iff, decide_eq_true_eq]
  constructor
  · rintro ⟨⟨⟨⟨hne, hshort⟩, hhead⟩, hlast⟩, hchars⟩
    exact ⟨⟨List.length_pos_iff.2 hne, hshort⟩, hchars, hhead, hlast⟩
  · intro h
    exact ⟨⟨⟨⟨List.length_pos_iff.1 h.size.1, h.size.2⟩, h.head⟩, h.last⟩, h.chars⟩

theorem LabelChar.ne_dot (h : LabelChar c) : c ≠ '.' := by
  rintro rfl
  rw [← isLabelChar_iff] at h
  exact absurd h (by decide)

theorem LabelChar.ne_star (h : LabelChar c) : c ≠ '*' := by
  rintro rfl
  rw [← isLabelChar_iff] at h
  exact absurd h (by decide)

theorem Label.dot_not_mem (h : Label l) : '.' ∉ l := fun hdot => (h.chars _ hdot).ne_dot rfl

/-! Labels between dots. -/

theorem Dotted.splitOn (h : Dotted cs) : ∀ l ∈ splitOn '.' cs, Label l := by
  induction h with
  | single hl =>
    rw [splitOn_of_not_mem hl.dot_not_mem]
    exact fun k hk => List.mem_singleton.1 hk ▸ hl
  | cons hl _ ih =>
    rw [splitOn_append_cons hl.dot_not_mem]
    exact List.forall_mem_cons.2 ⟨hl, ih⟩

theorem dotted_intercalate {ls : List (List Char)} (hne : ls ≠ []) (h : ∀ l ∈ ls, Label l) :
    Dotted (List.intercalate ['.'] ls) := by
  induction ls with
  | nil => exact absurd rfl hne
  | cons l ls ih =>
    rw [List.forall_mem_cons] at h
    cases ls with
    | nil =>
      rw [List.intercalate_singleton]
      exact .single h.1
    | cons k ks =>
      rw [List.intercalate_cons_cons, List.append_assoc]
      exact .cons h.1 (ih (List.cons_ne_nil k ks) h.2)

theorem dotted_iff : Dotted cs ↔ ∀ l ∈ splitOn '.' cs, isLabel l = true := by
  simp only [isLabel_iff]
  constructor
  · exact Dotted.splitOn
  · intro h
    rw [← intercalate_splitOn '.' cs]
    exact dotted_intercalate (splitOn_ne_nil '.' cs) h

theorem Dotted.mem (h : Dotted cs) (hc : c ∈ cs) : c = '.' ∨ LabelChar c := by
  induction h with
  | single hl => exact Or.inr (hl.chars c hc)
  | cons hl _ ih =>
    rcases List.mem_append.1 hc with hc | hc
    · exact Or.inr (hl.chars c hc)
    · rcases List.mem_cons.1 hc with hdot | hc
      · exact Or.inl hdot
      · exact ih hc

theorem Dotted.getLast? (h : Dotted cs) : ∃ c, cs.getLast? = some c ∧ LabelChar c := by
  induction h with
  | @single l hl =>
    have hne : l ≠ [] := List.length_pos_iff.1 hl.size.1
    exact ⟨l.getLast hne, List.getLast?_eq_some_getLast hne, hl.chars _ (List.getLast_mem hne)⟩
  | @cons l rest _ hrest ih =>
    obtain ⟨c, hc, hchar⟩ := ih
    refine ⟨c, ?_, hchar⟩
    rw [List.getLast?_append, List.getLast?_cons, hc]
    rfl

/-! Words. -/

theorem byteLength_eq (cs : List Char) : byteLength cs = (String.ofList cs).utf8ByteSize := by
  induction cs with
  | nil => rfl
  | cons c cs ih =>
    rw [String.ofList_cons, String.utf8ByteSize_append, String.utf8ByteSize_singleton, ← ih]
    rfl

theorem Dotted.withoutWildcard (h : Dotted body) : withoutWildcard body = body := by
  rw [Hostname.withoutWildcard]
  cases hstar : ['*', '.'].isPrefixOf? body with
  | none => rfl
  | some rest =>
    have hbody : body = '*' :: '.' :: rest := isPrefixOf?_eq_some.1 hstar
    have hmem : '*' ∈ body := hbody ▸ List.mem_cons_self
    rcases h.mem hmem with hdot | hchar
    · cases hdot
    · exact absurd rfl hchar.ne_star

theorem word_iff : Word cs ↔ byteLength (withoutWildcard cs) ≤ 253 ∧
    ∀ l ∈ splitOn '.' (withoutWildcard cs), isLabel l = true := by
  constructor
  · intro h
    cases h with
    | plain hdotted hsize =>
      rw [hdotted.withoutWildcard, byteLength_eq]
      exact ⟨hsize, dotted_iff.1 hdotted⟩
    | @wildcard body hdotted hsize =>
      have hbody : withoutWildcard ('*' :: '.' :: body) = body := rfl
      rw [hbody, byteLength_eq]
      exact ⟨hsize, dotted_iff.1 hdotted⟩
  · rintro ⟨hsize, hlabels⟩
    rw [byteLength_eq] at hsize
    rw [← dotted_iff] at hlabels
    rw [withoutWildcard] at hsize hlabels
    cases hstar : ['*', '.'].isPrefixOf? cs with
    | none =>
      rw [hstar] at hsize hlabels
      exact .plain hlabels hsize
    | some body =>
      rw [hstar] at hsize hlabels
      have hcs : cs = '*' :: '.' :: body := isPrefixOf?_eq_some.1 hstar
      rw [hcs]
      exact .wildcard hlabels hsize

theorem isValid_iff_word : isValid name = true ↔ Word (normalForm name.toList) := by
  rw [word_iff, isValid, Bool.and_eq_true, List.all_eq_true, decide_eq_true_eq]

theorem Word.mem (h : Word cs) (hc : c ∈ cs) : isBlank c = false := by
  have hdotted : ∀ {body}, Dotted body → c ∈ body → isBlank c = false := by
    intro body hbody hc
    rcases hbody.mem hc with rfl | hchar
    · rfl
    · exact isBlank_of_isLabelChar (isLabelChar_iff.2 hchar)
  cases h with
  | plain hbody => exact hdotted hbody hc
  | wildcard hbody =>
    rcases List.mem_cons.1 hc with rfl | hc
    · rfl
    rcases List.mem_cons.1 hc with rfl | hc
    · rfl
    exact hdotted hbody hc

theorem Word.getLast? (h : Word cs) : cs.getLast? ≠ some '.' := by
  have hdotted : ∀ {body}, Dotted body → body.getLast? ≠ some '.' := by
    intro body hbody
    obtain ⟨c, hc, hchar⟩ := hbody.getLast?
    rw [hc]
    exact fun hdot => hchar.ne_dot (Option.some.inj hdot)
  cases h with
  | plain hbody => exact hdotted hbody
  | @wildcard body hbody =>
    obtain ⟨c, hc, -⟩ := hbody.getLast?
    have hlast : ('*' :: '.' :: body).getLast? = body.getLast? := by
      rw [List.getLast?_cons_cons, List.getLast?_cons, hc]
      rfl
    rw [hlast]
    exact hdotted hbody

/-! What normalization takes off. -/

theorem exists_normalForm (cs : List Char) : ∃ before core dots after,
    cs = before ++ core ++ dots ++ after ∧ (∀ c ∈ before, isBlank c = true) ∧
      (∀ c ∈ dots, c = '.') ∧ (∀ c ∈ after, isBlank c = true) ∧
      normalForm cs = core.map Char.toLower := by
  obtain ⟨before, after, hcs, hbefore, hafter⟩ := exists_trim cs
  obtain ⟨dots, htrim, hdots⟩ := exists_dropTrailing (· = '.') (trim cs)
  refine ⟨before, _, dots, after, ?_, hbefore, fun c hc => of_decide_eq_true (hdots c hc), hafter,
    rfl⟩
  rw [List.append_assoc before, ← htrim]
  exact hcs

theorem normalForm_of_word {before core dots after : List Char}
    (hbefore : ∀ c ∈ before, isBlank c = true) (hdots : ∀ c ∈ dots, c = '.')
    (hafter : ∀ c ∈ after, isBlank c = true) (hword : Word (core.map Char.toLower)) :
    normalForm (before ++ core ++ dots ++ after) = core.map Char.toLower := by
  have hclear : ∀ c ∈ core ++ dots, isBlank c = false := by
    intro c hc
    rcases List.mem_append.1 hc with hc | hc
    · rw [← isBlank_toLower]
      exact hword.mem (List.mem_map_of_mem hc)
    · rw [hdots c hc]
      rfl
  have htrim : trim (before ++ core ++ dots ++ after) = core ++ dots := by
    rw [List.append_assoc before]
    exact trim_append hbefore hclear hafter
  have hlast : ∀ c, core.getLast? = some c → decide (c = '.') = false := by
    intro c hc
    refine decide_eq_false fun hdot => hword.getLast? ?_
    rw [List.getLast?_map, hc, hdot]
    rfl
  rw [normalForm, htrim, dropTrailing_append_of_all fun c hc => decide_eq_true (hdots c hc),
    dropTrailing_eq_self hlast]

/-- A name is valid if and only if its normal form is a word of the grammar, that is, if it is one in
letters of either case, between blanks and with dots after it. The normal form of a valid name is valid
and normal, and the two cover one another. -/
theorem isValid_exactly (name : String) :
    (isValid name = true ↔
      Word ((dropTrailing (· = '.') (trim name.toList)).map Char.toLower)) ∧
    (isValid name = true ↔ ∃ before core dots after,
      name.toList = before ++ core ++ dots ++ after ∧ (∀ c ∈ before, isBlank c = true) ∧
        (∀ c ∈ dots, c = '.') ∧ (∀ c ∈ after, isBlank c = true) ∧ Word (core.map Char.toLower)) ∧
    (isValid name = true →
      isValid (normalize name) = true ∧ normalize (normalize name) = normalize name ∧
        covers name (normalize name) = true ∧ covers (normalize name) name = true) := by
  refine ⟨isValid_iff_word, ⟨fun h => ?_, ?_⟩, fun h => ?_⟩
  · obtain ⟨before, core, dots, after, hname, hbefore, hdots, hafter, hcore⟩ :=
      exists_normalForm name.toList
    rw [isValid_iff_word, hcore] at h
    exact ⟨before, core, dots, after, hname, hbefore, hdots, hafter, h⟩
  · rintro ⟨before, core, dots, after, hname, hbefore, hdots, hafter, hword⟩
    rw [isValid_iff_word, hname, normalForm_of_word hbefore hdots hafter hword]
    exact hword
  · have hregistered := registered_normalize h
    have hlabels := labels_normalize h
    exact ⟨hregistered.valid, hregistered.normal, covers_of_labels hlabels,
      covers_of_labels hlabels.symm⟩

theorem isValid_wildcard_exactly :
    isValid "\u00a0*.Shop_1.EXAMPLE..\u3000" = true ∧
      normalize "\u00a0*.Shop_1.EXAMPLE..\u3000" = "*.shop_1.example" ∧
      isValid "*.shop_1.example" = true ∧
      covers "\u00a0*.Shop_1.EXAMPLE..\u3000" "*.shop_1.example" = true ∧
      covers "*.shop_1.example" "\u00a0*.Shop_1.EXAMPLE..\u3000" = true := by
  obtain ⟨hgrammar, -, hclosed⟩ := isValid_exactly "\u00a0*.Shop_1.EXAMPLE..\u3000"
  have hnormal : normalize "\u00a0*.Shop_1.EXAMPLE..\u3000" = "*.shop_1.example" := by decide +kernel
  have hvalid : isValid "\u00a0*.Shop_1.EXAMPLE..\u3000" = true := by decide +kernel
  obtain ⟨hstored, -, hforth, hback⟩ := hclosed hvalid
  rw [hnormal] at hstored hforth hback
  exact ⟨hvalid, hnormal, hstored, hforth, hback⟩

end FleetControl.Hostname
