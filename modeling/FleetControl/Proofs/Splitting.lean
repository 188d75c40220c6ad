import FleetControl.Text.Blank
import FleetControl.Text.Split

/-!
Texts that are cut. The pieces between separators lose nothing but the separators, and what is cut
off at an end is exactly what was asked for.
-/

namespace FleetControl.Text

variable {sep c : Char} {p : Char → Bool} {cs ds es : List Char}

theorem splitOn_ne_nil (sep : Char) (cs : List Char) : splitOn sep cs ≠ [] := by
  induction cs with
  | nil => simp [splitOn]
  | cons c cs ih =>
    rw [splitOn]
    split
    · simp
    · split <;> simp

theorem intercalate_splitOn (sep : Char) (cs : List Char) :
    List.intercalate [sep] (splitOn sep cs) = cs := by
  induction cs with
  | nil => rfl
  | cons c cs ih =>
    rw [splitOn]
    split
    · rename_i hc
      rw [List.intercalate_cons_of_ne_nil (splitOn_ne_nil sep cs), ih, hc]
      rfl
    · split
      · exact absurd ‹_› (splitOn_ne_nil sep cs)
      · rename_i w ws hsplit
        rw [hsplit] at ih
        -- The character joins the first piece, whether or not others follow.
        cases ws with
        | nil =>
          rw [List.intercalate_singleton] at ih ⊢
          rw [ih]
        | cons v vs =>
          rw [List.intercalate_cons_cons] at ih ⊢
          rw [← ih]
          rfl

theorem splitOn_injective (h : splitOn sep cs = splitOn sep ds) : cs = ds := by
  rw [← intercalate_splitOn sep cs, h, intercalate_splitOn]

theorem mem_splitOn (sep : Char) (hc : c ∈ cs) : c = sep ∨ ∃ w ∈ splitOn sep cs, c ∈ w := by
  induction cs with
  | nil => cases hc
  | cons d cs ih =>
    rw [splitOn]
    by_cases hd : d = sep
    · rw [if_pos hd]
      rcases List.mem_cons.1 hc with rfl | hc
      · exact Or.inl hd
      · rcases ih hc with hsep | ⟨w, hw, hcw⟩
        · exact Or.inl hsep
        · exact Or.inr ⟨w, List.mem_cons_of_mem _ hw, hcw⟩
    · rw [if_neg hd]
      split
      · exact absurd ‹_› (splitOn_ne_nil sep cs)
      · rename_i w ws hsplit
        rw [hsplit] at ih
        rcases List.mem_cons.1 hc with rfl | hc
        · exact Or.inr ⟨c :: w, List.mem_cons_self, List.mem_cons_self⟩
        · rcases ih hc with hsep | ⟨v, hv, hcv⟩
          · exact Or.inl hsep
          · rcases List.mem_cons.1 hv with rfl | hv
            · exact Or.inr ⟨d :: v, List.mem_cons_self, List.mem_cons_of_mem _ hcv⟩
            · exact Or.inr ⟨v, List.mem_cons_of_mem _ hv, hcv⟩

theorem splitOn_of_not_mem (h : sep ∉ cs) : splitOn sep cs = [cs] := by
  induction cs with
  | nil => rfl
  | cons c cs ih =>
    rw [List.mem_cons, not_or] at h
    rw [splitOn, if_neg (Ne.symm h.1), ih h.2]

theorem splitOn_append_cons (h : sep ∉ cs) (ds : List Char) :
    splitOn sep (cs ++ sep :: ds) = cs :: splitOn sep ds := by
  induction cs with
  | nil => rw [List.nil_append, splitOn, if_pos rfl]
  | cons c cs ih =>
    rw [List.mem_cons, not_or] at h
    rw [List.cons_append, splitOn, if_neg (Ne.symm h.1), ih h.2]

theorem append_of_splitOnce {before after : List Char}
    (h : splitOnce sep cs = some (before, after)) : cs = before ++ sep :: after := by
  induction cs generalizing before with
  | nil => cases h
  | cons c cs ih =>
    rw [splitOnce] at h
    split at h
    · rename_i hc
      cases h
      rw [hc]
      rfl
    · obtain ⟨⟨ds, es⟩, hrest, heq⟩ := Option.map_eq_some_iff.1 h
      cases heq
      rw [ih hrest]
      rfl

theorem splitOnce_of_not_mem (h : sep ∉ cs) : splitOnce sep cs = none := by
  induction cs with
  | nil => rfl
  | cons c cs ih =>
    rw [List.mem_cons, not_or] at h
    rw [splitOnce, if_neg (Ne.symm h.1), ih h.2, Option.map_none]

theorem splitOnce_append_cons (h : sep ∉ cs) (ds : List Char) :
    splitOnce sep (cs ++ sep :: ds) = some (cs, ds) := by
  induction cs with
  | nil => rw [List.nil_append, splitOnce, if_pos rfl]
  | cons c cs ih =>
    rw [List.mem_cons, not_or] at h
    rw [List.cons_append, splitOnce, if_neg (Ne.symm h.1), ih h.2, Option.map_some]

theorem splitOnce_eq_none : splitOnce sep cs = none ↔ sep ∉ cs := by
  refine ⟨fun h hmem => ?_, splitOnce_of_not_mem⟩
  obtain ⟨before, after, rfl, hbefore⟩ := List.eq_append_cons_of_mem hmem
  rw [splitOnce_append_cons hbefore] at h
  cases h

theorem splitLast_append_cons (sep : Char) (cs ds : List Char) : splitLast sep (cs ++ sep :: ds) =
    match splitLast sep ds with
    | some (before, after) => some (cs ++ sep :: before, after)
    | none => some (cs, ds) := by
  induction cs with
  | nil =>
    rw [List.nil_append, splitLast]
    cases splitLast sep ds with
    | none => simp
    | some e => rfl
  | cons c cs ih =>
    rw [List.cons_append, splitLast, ih]
    cases splitLast sep ds <;> rfl

theorem dropTrailing_append_cons (hc : p c = false) :
    dropTrailing p (cs ++ c :: ds) = cs ++ c :: dropTrailing p ds := by
  induction cs with
  | nil =>
    rw [List.nil_append, dropTrailing]
    cases dropTrailing p ds <;> simp [hc]
  | cons d cs ih =>
    rw [List.cons_append, dropTrailing, ih]
    cases cs <;> rfl

theorem dropTrailing_eq_self (h : ∀ c, cs.getLast? = some c → p c = false) :
    dropTrailing p cs = cs := by
  induction cs with
  | nil => rfl
  | cons c cs ih =>
    rw [dropTrailing]
    cases cs with
    | nil =>
      have hc : p c = false := h c rfl
      simp [dropTrailing, hc]
    | cons d cs =>
      rw [ih fun e he => h e (by rw [List.getLast?_cons_cons]; exact he)]

theorem getLast?_dropTrailing (h : (dropTrailing p cs).getLast? = some c) : p c = false := by
  induction cs with
  | nil => cases h
  | cons d cs ih =>
    rw [dropTrailing] at h
    split at h
    · split at h
      · cases h
      · rename_i hd
        cases h
        simpa using hd
    · rename_i e es heq
      rw [List.getLast?_cons_cons, ← heq] at h
      exact ih h

theorem dropTrailing_append_of_all (h : ∀ d ∈ ds, p d = true) :
    dropTrailing p (cs ++ ds) = dropTrailing p cs := by
  have hnil : dropTrailing p ds = [] := by
    induction ds with
    | nil => rfl
    | cons d ds ih =>
      rw [List.forall_mem_cons] at h
      rw [dropTrailing, ih h.2, if_pos h.1]
  induction cs with
  | nil => exact hnil
  | cons c cs ih => rw [List.cons_append, dropTrailing, dropTrailing, ih]

theorem exists_dropTrailing (p : Char → Bool) (cs : List Char) :
    ∃ ds, cs = dropTrailing p cs ++ ds ∧ ∀ d ∈ ds, p d = true := by
  induction cs with
  | nil => exact ⟨[], rfl, fun _ hd => absurd hd List.not_mem_nil⟩
  | cons c cs ih =>
    obtain ⟨ds, hcs, hds⟩ := ih
    rw [dropTrailing]
    split
    · rename_i hnil
      rw [hnil, List.nil_append] at hcs
      split
      · rename_i hc
        exact ⟨c :: cs, rfl, List.forall_mem_cons.2 ⟨hc, hcs ▸ hds⟩⟩
      · exact ⟨cs, rfl, hcs ▸ hds⟩
    · rename_i e es hkept
      rw [hkept] at hcs
      exact ⟨ds, congrArg (c :: ·) hcs, hds⟩

theorem isPrefix_dropTrailing (p : Char → Bool) (cs : List Char) : dropTrailing p cs <+: cs := by
  obtain ⟨ds, hcs, -⟩ := exists_dropTrailing p cs
  exact ⟨ds, hcs.symm⟩

theorem head?_of_dropTrailing (h : (dropTrailing p cs).head? = some c) : cs.head? = some c := by
  obtain ⟨ds, hcs⟩ := isPrefix_dropTrailing p cs
  obtain ⟨es, hes⟩ := List.head?_eq_some_iff.1 h
  rw [← hcs, hes]
  rfl

theorem exists_trim (cs : List Char) : ∃ before after, cs = before ++ trim cs ++ after ∧
    (∀ c ∈ before, isBlank c = true) ∧ ∀ c ∈ after, isBlank c = true := by
  obtain ⟨after, hrest, hafter⟩ := exists_dropTrailing isBlank (cs.dropWhile isBlank)
  refine ⟨cs.takeWhile isBlank, after, ?_, List.all_eq_true.1 List.all_takeWhile, hafter⟩
  rw [trim, List.append_assoc, ← hrest, List.takeWhile_append_dropWhile]

theorem trim_sublist (cs : List Char) : List.Sublist (trim cs) cs :=
  (isPrefix_dropTrailing _ _).sublist.trans (List.dropWhile_sublist _)

theorem head?_trim (h : (trim cs).head? = some c) : isBlank c = false := by
  have hfirst := List.head?_dropWhile_not isBlank cs
  rw [head?_of_dropTrailing h] at hfirst
  exact hfirst

theorem trim_append {before after : List Char} (hbefore : ∀ c ∈ before, isBlank c = true)
    (hcs : ∀ c ∈ cs, isBlank c = false) (hafter : ∀ c ∈ after, isBlank c = true) :
    trim (before ++ cs ++ after) = cs := by
  rw [trim, List.append_assoc, List.dropWhile_append_of_pos hbefore]
  cases cs with
  | nil =>
    have hnone : (after ++ []).dropWhile isBlank = [] := List.dropWhile_append_of_pos hafter
    rw [List.append_nil] at hnone
    rw [List.nil_append, hnone]
    rfl
  | cons c cs =>
    have hkept : (c :: cs ++ after).dropWhile isBlank = c :: cs ++ after := by
      rw [List.cons_append, List.dropWhile_cons, hcs c List.mem_cons_self]; rfl
    rw [hkept, dropTrailing_append_of_all hafter]
    exact dropTrailing_eq_self fun d hd => hcs d (List.mem_of_getLast? hd)

theorem isPrefixOf?_eq_some : cs.isPrefixOf? ds = some es ↔ ds = cs ++ es := by
  induction cs generalizing ds with
  | nil =>
    change some ds = some es ↔ ds = [] ++ es
    rw [Option.some.injEq, List.nil_append]
  | cons c cs ih =>
    cases ds with
    | nil =>
      constructor <;> intro h <;> cases h
    | cons d ds =>
      change (if c == d then cs.isPrefixOf? ds else none) = some es ↔ d :: ds = c :: (cs ++ es)
      rw [List.cons.injEq]
      by_cases hcd : c = d
      · simp [hcd, ih]
      · simp [hcd, Ne.symm hcd]

end FleetControl.Text
