import FleetControl.Json.Reader
import FleetControl.Proofs.Json.Codec
import Mathlib.Data.List.TakeWhile

/-!
JSON text read back. The scanner turns the text of a value, compact or indented, into the tokens of
the value, and the reader puts what the tokens write in its place. What can be read has no reals, has
integers of one machine word and is nested no deeper than the reader follows.
-/

namespace FleetControl.Json

open Text Token

variable {c : Char} {cs ds : List Char} {chars : List Char} {j : Json} {n : Nat}

/-! Words. -/

def Ends (cs : List Char) : Prop := ∀ c, cs.head? = some c → endsWord c = true

theorem ends_nil : Ends [] := by
  intro c h
  cases h

theorem ends_cons (h : endsWord c = true) : Ends (c :: cs) := by
  intro d hd
  cases hd
  exact h

theorem endsWord_of_isDigit (h : c.isDigit = true) : endsWord c = false := by
  cases hends : endsWord c with
  | false => rfl
  | true =>
    have hmem : c ∈ [' ', '\t', '\n', '\r', '"', '[', ']', '\x7b', '\x7d', ':', ','] := by
      simp only [endsWord, isSpace, Bool.or_eq_true, decide_eq_true_eq] at hends
      rcases hends with ((((rfl | rfl) | rfl) | rfl) | rfl) | hmark
      · decide
      · decide
      · decide
      · decide
      · decide
      · unfold punctuation? at hmark
        split at hmark <;> first | decide | cases hmark
    have hnone : [' ', '\t', '\n', '\r', '"', '[', ']', '\x7b', '\x7d', ':', ','].any
        Char.isDigit = false := by decide
    exact absurd h (List.any_eq_false.1 hnone c hmem)

theorem start_of_not_endsWord (h : endsWord c = false) : start c = (.word [c], []) := by
  simp only [endsWord, Bool.or_eq_false_iff, decide_eq_false_iff_not] at h
  obtain ⟨⟨hspace, hquote⟩, hmark⟩ := h
  have hnone : punctuation? c = none := by
    cases hp : punctuation? c with
    | none => rfl
    | some t =>
      rw [hp] at hmark
      cases hmark
  rw [start, if_neg (by rw [hspace]; decide), if_neg hquote, hnone]

theorem scan_wordRest (hword : ∀ c ∈ cs, endsWord c = false)
    (hread : word? (chars.reverse ++ cs) = some j) (hends : Ends ds) :
    scan (.word chars) (cs ++ ds) = (scan .between ds).map (.scalar j :: ·) := by
  induction cs generalizing chars with
  | nil =>
    rw [List.append_nil] at hread
    cases ds with
    | nil => simp [scan, finish, hread]
    | cons d ds =>
      have hd := hends d rfl
      simp [scan, step, hd, hread, Function.comp_def]
  | cons c cs ih =>
    have hc := hword c List.mem_cons_self
    have hrest : scan (.word (c :: chars)) (cs ++ ds) =
        (scan .between ds).map (.scalar j :: ·) := by
      refine ih (fun d hd => hword d (List.mem_cons_of_mem c hd)) ?_
      rw [List.reverse_cons, List.append_assoc]
      exact hread
    simp [scan, step, hc, hrest, Function.comp_def]

theorem scan_word (hne : cs ≠ []) (hword : ∀ c ∈ cs, endsWord c = false)
    (hread : word? cs = some j) (hends : Ends ds) :
    scan .between (cs ++ ds) = (scan .between ds).map (.scalar j :: ·) := by
  cases cs with
  | nil => exact absurd rfl hne
  | cons c cs =>
    have hstart := start_of_not_endsWord (hword c List.mem_cons_self)
    have hrest : scan (.word [c]) (cs ++ ds) = (scan .between ds).map (.scalar j :: ·) :=
      scan_wordRest (fun d hd => hword d (List.mem_cons_of_mem c hd)) hread hends
    simp [scan, step, hstart, hrest, Function.comp_def]

theorem scan_constant (hne : cs ≠ []) (hword : cs.any endsWord = false) (hread : word? cs = some j)
    (hends : Ends ds) : scan .between (cs ++ ds) = (scan .between ds).map (.scalar j :: ·) := by
  refine scan_word hne (fun c hc => ?_) hread hends
  simpa using List.any_eq_false.1 hword c hc

/-! Integers. -/

theorem ofNat_ne_zero_cons (n : Nat) (c : Char) (cs : List Char) : ofNat n ≠ '0' :: c :: cs := by
  induction n using Nat.strongRecOn generalizing c cs with
  | ind n ih =>
    intro h
    by_cases hsmall : n < 10
    · rw [ofNat, Nat.toDigits_of_lt_base hsmall] at h
      simp at h
    · have hlarge : 10 ≤ n := Nat.le_of_not_lt hsmall
      rw [ofNat, Nat.toDigits_of_base_le (by decide) hlarge, ← ofNat] at h
      cases hfront : ofNat (n / 10) with
      | nil => exact absurd hfront Nat.toDigits_ne_nil
      | cons d ds =>
        rw [hfront] at h
        obtain ⟨rfl, -⟩ := List.cons.inj h
        cases ds with
        | nil =>
          have hzero : n / 10 = 0 := ofNat_injective hfront
          omega
        | cons e ds => exact ih (n / 10) (by omega) e ds hfront

theorem spanDigits_ofNat (n : Nat) : spanDigits (ofNat n) = (ofNat n, []) := by
  have hdigits : ∀ c ∈ ofNat n, (digit? c).isSome = true := by
    intro c hc
    rw [digit?_of_isDigit (isDigit_of_mem_ofNat hc)]
    rfl
  rw [spanDigits, List.takeWhile_eq_self_iff.2 hdigits, List.dropWhile_eq_nil_iff.2 hdigits]

theorem natural?_ofNat (n : Nat) : natural? (ofNat n) = some n := by
  have hvalue : Nat.ofDigitChars 10 (ofNat n) 0 = n := Nat.ofDigitChars_ten_toDigits
  have hread : natural? (ofNat n) = some (Nat.ofDigitChars 10 (ofNat n) 0) :=
    natural?_eq Nat.toDigits_ne_nil fun c hc => isDigit_of_mem_ofNat hc
  rw [hread, hvalue]

def isWord (n : Int) : Bool := -0x8000000000000000 ≤ n && n < 0x10000000000000000

theorem number?_ofNat (h : n < 0x10000000000000000) : number? (ofNat n) = some (int n) := by
  unfold number?
  split
  rename_i negative cs hsign
  split at hsign
  · rename_i heq
    exact absurd ((List.append_nil (ofNat n)).trans heq) (ofNat_append_ne rfl n)
  · cases hsign
    simp only [spanDigits_ofNat]
    split
    · exact absurd ‹_› Nat.toDigits_ne_nil
    · exact absurd ‹_› (ofNat_ne_zero_cons n _ _)
    · simp [fraction?, exponent?, natural?_ofNat, h]

theorem number?_neg (hpos : 0 < n) (h : n ≤ 0x8000000000000000) :
    number? ('-' :: ofNat n) = some (int (-n)) := by
  simp only [number?, spanDigits_ofNat]
  split
  · exact absurd ‹_› Nat.toDigits_ne_nil
  · exact absurd ‹_› (ofNat_ne_zero_cons n _ _)
  · simp [fraction?, exponent?, natural?_ofNat, hpos, h]

theorem number?_ofInt {n : Int} (h : isWord n = true) : number? (ofInt n) = some (int n) := by
  simp only [isWord, Bool.and_eq_true, decide_eq_true_eq] at h
  cases n with
  | ofNat n => exact number?_ofNat (Int.ofNat_lt.1 h.2)
  | negSucc n => exact number?_neg (Nat.succ_pos n) (by omega)

theorem word?_ofInt {n : Int} (h : isWord n = true) : word? (ofInt n) = some (int n) := by
  have hplain : announced (ofInt n) = none := by
    have hnone := announced_render (j := int n) rfl []
    rwa [render, List.append_nil] at hnone
  unfold word?
  split
  · rename_i heq
    rw [heq] at hplain
    cases hplain
  · rename_i heq
    rw [heq] at hplain
    cases hplain
  · rename_i heq
    rw [heq] at hplain
    cases hplain
  · exact number?_ofInt h

theorem scan_ofInt {n : Int} (h : isWord n = true) (hends : Ends ds) :
    scan .between (ofInt n ++ ds) = (scan .between ds).map (.scalar (int n) :: ·) := by
  have hdigits : ∀ m, ∀ c ∈ ofNat m, endsWord c = false :=
    fun m c hc => endsWord_of_isDigit (isDigit_of_mem_ofNat hc)
  refine scan_word ?_ ?_ (word?_ofInt h) hends
  · cases n with
    | ofNat n => exact Nat.toDigits_ne_nil
    | negSucc n => exact List.cons_ne_nil _ _
  · cases n with
    | ofNat n => exact hdigits n
    | negSucc n =>
      intro c hc
      rcases List.mem_cons.1 hc with rfl | hc
      · rfl
      · exact hdigits (n + 1) c hc

/-! Strings. -/

theorem scan_control (h : c.toNat < 0x20) (chars ds : List Char) :
    scan (.string chars) ('\\' :: 'u' :: '0' :: '0' :: hexPair c.toNat.toUInt8 ++ ds) =
      scan (.string (c :: chars)) ds := by
  have hbyte : c.toNat.toUInt8.toNat = c.toNat := by
    rw [Nat.toUInt8_eq, UInt8.toNat_ofNat']
    omega
  have hhigh := hexDigit?_hexDigit (c.toNat / 16) (by omega)
  have hlow := hexDigit?_hexDigit (c.toNat % 16) (by omega)
  have hvalue : c.toNat / 16 * 16 + c.toNat % 16 = c.toNat := Nat.div_add_mod' _ _
  have hzero : hexDigit? '0' = some 0 := by decide
  have hunit : endUnit chars none c.toNat = some (.string (c :: chars)) := by
    have hlead : ¬ 0xD800 ≤ c.toNat := by omega
    have htrail : ¬ 0xDC00 ≤ c.toNat := by omega
    simp [endUnit, hlead, htrail]
  simp [hexPair, hbyte, scan, step, hzero, hhigh, hlow, hvalue, hunit]

theorem scan_plain (hquote : c ≠ '"') (hslash : c ≠ '\\') (hplain : ¬ c.toNat < 0x20)
    (chars ds : List Char) : scan (.string chars) (c :: ds) = scan (.string (c :: chars)) ds := by
  simp [scan, step, hquote, hslash, hplain]

theorem scan_escape (c : Char) (chars ds : List Char) :
    scan (.string chars) (escape c ++ ds) = scan (.string (c :: chars)) ds := by
  unfold escape
  -- One case for each short escape, as they were read back before.
  split
  · subst c; simp [scan, step, simpleEscape?]
  split
  · subst c; simp [scan, step, simpleEscape?]
  split
  · subst c; simp [scan, step, simpleEscape?]
  split
  · subst c; simp [scan, step, simpleEscape?]
  split
  · subst c; simp [scan, step, simpleEscape?]
  split
  · subst c; simp [scan, step, simpleEscape?]
  split
  · subst c; simp [scan, step, simpleEscape?]
  split
  · exact scan_control ‹_› chars ds
  · exact scan_plain ‹_› ‹_› ‹_› chars ds

theorem scan_escapes (ls chars ds : List Char) :
    scan (.string chars) (ls.flatMap escape ++ '"' :: ds) =
      (scan .between ds).map (.str (String.ofList (chars.reverse ++ ls)) :: ·) := by
  induction ls generalizing chars with
  | nil => simp [scan, step]
  | cons c ls ih =>
    rw [List.flatMap_cons, List.append_assoc, scan_escape, ih, List.reverse_cons, List.append_assoc]
    rfl

theorem scan_quoted (s : String) (ds : List Char) :
    scan .between (quoted s ++ ds) = (scan .between ds).map (.str s :: ·) := by
  have hbody := scan_escapes s.toList [] ds
  rw [List.reverse_nil, List.nil_append, String.ofList_toList] at hbody
  have hopen : scan .between (quoted s ++ ds) =
      scan (.string []) (s.toList.flatMap escape ++ '"' :: ds) := by
    simp [quoted, scan, step, start, isSpace]
  rw [hopen, hbody]

/-! Punctuation and white space. -/

theorem scan_punctuation {t : Token} (h : start c = (.between, [t])) (ds : List Char) :
    scan .between (c :: ds) = (scan .between ds).map (t :: ·) := by
  simp [scan, step, h]

theorem scan_space (h : isSpace c = true) (ds : List Char) :
    scan .between (c :: ds) = scan .between ds := by
  simp [scan, step, start, h]

theorem scan_newline (depth : Nat) (ds : List Char) :
    scan .between (newline depth ++ ds) = scan .between ds := by
  rw [newline, List.cons_append, scan_space rfl]
  induction 2 * depth with
  | zero => rfl
  | succ k ih => rw [List.replicate_succ, List.cons_append, scan_space rfl, ih]

/-! Values. -/

mutual

def isReadable : (depth : Nat) → Json → Bool
  | _, real _ => false
  | _, int n => isWord n
  | depth + 1, arr items => itemsReadable depth items
  | depth + 1, obj members => membersReadable depth members
  | 0, arr _ | 0, obj _ => false
  | _, _ => true

def itemsReadable (depth : Nat) : List Json → Bool
  | [] => true
  | j :: js => isReadable depth j && itemsReadable depth js

def membersReadable (depth : Nat) : List (String × Json) → Bool
  | [] => true
  | (_, j) :: ms => isReadable depth j && membersReadable depth ms

end

mutual

def tokens : Json → List Token
  | str s => [.str s]
  | arr [] => [.openArray, .closeArray]
  | arr (j :: js) => .openArray :: (tokens j ++ itemTokens js)
  | obj [] => [.openObject, .closeObject]
  | obj ((k, j) :: ms) => .openObject :: .str k :: .colon :: (tokens j ++ memberTokens ms)
  | j => [.scalar j]

def itemTokens : List Json → List Token
  | [] => [.closeArray]
  | j :: js => .comma :: (tokens j ++ itemTokens js)

def memberTokens : List (String × Json) → List Token
  | [] => [.closeObject]
  | (k, j) :: ms => .comma :: .str k :: .colon :: (tokens j ++ memberTokens ms)

end

theorem ends_renderItems (js : List Json) (ds : List Char) : Ends (renderItems js ++ ds) := by
  cases js <;> exact ends_cons rfl

theorem ends_renderMembers (ms : List (String × Json)) (ds : List Char) :
    Ends (renderMembers ms ++ ds) := by
  cases ms <;> exact ends_cons rfl

mutual

theorem scan_render {depth : Nat} (j : Json) {ds : List Char} (hj : isReadable depth j = true)
    (hends : Ends ds) :
    scan .between (render j ++ ds) = (scan .between ds).map (tokens j ++ ·) := by
  match depth, j with
  | _, null => exact scan_constant (by decide) (by decide) rfl hends
  | _, bool true => exact scan_constant (by decide) (by decide) rfl hends
  | _, bool false => exact scan_constant (by decide) (by decide) rfl hends
  | _, int n => exact scan_ofInt hj hends
  | _, str s => exact scan_quoted s ds
  | _, arr [] =>
    simp [render, tokens, scan_punctuation (c := '[') rfl, scan_punctuation (c := ']') rfl,
      Function.comp_def]
  | depth + 1, arr (j :: js) =>
    simp only [isReadable, itemsReadable, Bool.and_eq_true] at hj
    have hfirst := scan_render j hj.1 (ends_renderItems js ds)
    have hrest := scan_renderItems js ds hj.2
    simp [render, tokens, scan_punctuation (c := '[') rfl, hfirst, hrest, Function.comp_def]
  | _, obj [] =>
    simp [render, tokens, scan_punctuation (c := '\x7b') rfl, scan_punctuation (c := '\x7d') rfl,
      Function.comp_def]
  | depth + 1, obj ((k, j) :: ms) =>
    simp only [isReadable, membersReadable, Bool.and_eq_true] at hj
    have hfirst := scan_render j hj.1 (ends_renderMembers ms ds)
    have hrest := scan_renderMembers ms ds hj.2
    simp [render, tokens, scan_punctuation (c := '\x7b') rfl, scan_punctuation (c := ':') rfl,
      scan_quoted, hfirst, hrest, Function.comp_def]

theorem scan_renderItems {depth : Nat} (js : List Json) (ds : List Char)
    (hj : itemsReadable depth js = true) :
    scan .between (renderItems js ++ ds) = (scan .between ds).map (itemTokens js ++ ·) := by
  match js with
  | [] => exact scan_punctuation rfl ds
  | j :: js =>
    simp only [itemsReadable, Bool.and_eq_true] at hj
    have hfirst := scan_render j hj.1 (ends_renderItems js ds)
    have hrest := scan_renderItems js ds hj.2
    simp [renderItems, itemTokens, scan_punctuation (c := ',') rfl, hfirst, hrest,
      Function.comp_def]

theorem scan_renderMembers {depth : Nat} (ms : List (String × Json)) (ds : List Char)
    (hm : membersReadable depth ms = true) :
    scan .between (renderMembers ms ++ ds) = (scan .between ds).map (memberTokens ms ++ ·) := by
  match ms with
  | [] => exact scan_punctuation rfl ds
  | (k, j) :: ms =>
    simp only [membersReadable, Bool.and_eq_true] at hm
    have hfirst := scan_render j hm.1 (ends_renderMembers ms ds)
    have hrest := scan_renderMembers ms ds hm.2
    simp [renderMembers, memberTokens, scan_punctuation (c := ',') rfl,
      scan_punctuation (c := ':') rfl, scan_quoted, hfirst, hrest, Function.comp_def]

end

/-! Indented text. -/

theorem ends_prettyItems (indent : Nat) (js : List Json) (ds : List Char) :
    Ends (prettyItems indent js ++ ds) := by
  cases js <;> exact ends_cons rfl

theorem ends_prettyMembers (indent : Nat) (ms : List (String × Json)) (ds : List Char) :
    Ends (prettyMembers indent ms ++ ds) := by
  cases ms <;> exact ends_cons rfl

mutual

theorem scan_prettyAt {depth : Nat} (indent : Nat) (j : Json) {ds : List Char}
    (hj : isReadable depth j = true) (hends : Ends ds) :
    scan .between (prettyAt indent j ++ ds) = (scan .between ds).map (tokens j ++ ·) := by
  match depth, j with
  | _, null => exact scan_render null hj hends
  | _, bool b => exact scan_render (bool b) hj hends
  | _, int n => exact scan_render (int n) hj hends
  | _, str s => exact scan_quoted s ds
  | _, arr [] =>
    simp [prettyAt, tokens, scan_punctuation (c := '[') rfl, scan_punctuation (c := ']') rfl,
      Function.comp_def]
  | depth + 1, arr (j :: js) =>
    simp only [isReadable, itemsReadable, Bool.and_eq_true] at hj
    have hfirst := scan_prettyAt (indent + 1) j hj.1 (ends_prettyItems indent js ds)
    have hrest := scan_prettyItems indent js ds hj.2
    simp [prettyAt, tokens, scan_punctuation (c := '[') rfl, scan_newline, hfirst, hrest,
      Function.comp_def]
  | _, obj [] =>
    simp [prettyAt, tokens, scan_punctuation (c := '\x7b') rfl, scan_punctuation (c := '\x7d') rfl,
      Function.comp_def]
  | depth + 1, obj ((k, j) :: ms) =>
    simp only [isReadable, membersReadable, Bool.and_eq_true] at hj
    have hfirst := scan_prettyAt (indent + 1) j hj.1 (ends_prettyMembers indent ms ds)
    have hrest := scan_prettyMembers indent ms ds hj.2
    simp [prettyAt, tokens, scan_punctuation (c := '\x7b') rfl, scan_newline, scan_quoted,
      scan_punctuation (c := ':') rfl, scan_space (c := ' ') rfl, hfirst, hrest, Function.comp_def]

theorem scan_prettyItems {depth : Nat} (indent : Nat) (js : List Json) (ds : List Char)
    (hj : itemsReadable depth js = true) :
    scan .between (prettyItems indent js ++ ds) =
      (scan .between ds).map (itemTokens js ++ ·) := by
  match js with
  | [] => simp [prettyItems, itemTokens, scan_newline, scan_punctuation (c := ']') rfl]
  | j :: js =>
    simp only [itemsReadable, Bool.and_eq_true] at hj
    have hfirst := scan_prettyAt (indent + 1) j hj.1 (ends_prettyItems indent js ds)
    have hrest := scan_prettyItems indent js ds hj.2
    simp [prettyItems, itemTokens, scan_newline, scan_punctuation (c := ',') rfl, hfirst, hrest,
      Function.comp_def]

theorem scan_prettyMembers {depth : Nat} (indent : Nat) (ms : List (String × Json))
    (ds : List Char) (hm : membersReadable depth ms = true) :
    scan .between (prettyMembers indent ms ++ ds) =
      (scan .between ds).map (memberTokens ms ++ ·) := by
  match ms with
  | [] => simp [prettyMembers, memberTokens, scan_newline, scan_punctuation (c := '\x7d') rfl]
  | (k, j) :: ms =>
    simp only [membersReadable, Bool.and_eq_true] at hm
    have hfirst := scan_prettyAt (indent + 1) j hm.1 (ends_prettyMembers indent ms ds)
    have hrest := scan_prettyMembers indent ms ds hm.2
    simp [prettyMembers, memberTokens, scan_newline, scan_punctuation (c := ',') rfl, scan_quoted,
      scan_punctuation (c := ':') rfl, scan_space (c := ' ') rfl, hfirst, hrest, Function.comp_def]

end

/-! The reader. -/

namespace Reader

def follow (s : State) (ts : List Token) : Option State := ts.foldlM step s

variable {s s' : State} {stack : List Frame} {t : Token} {ts : List Token}

theorem follow_cons (h : step s t = some s') (ts : List Token) :
    follow s (t :: ts) = follow s' ts := by
  rw [follow, List.foldlM_cons, h]
  rfl

theorem follow_last (s : State) (t : Token) (ts : List Token) :
    follow s (t :: ts) = (step s t).bind (follow · ts) := List.foldlM_cons

theorem enter_eq (h : stack.length + 1 ≤ maxDepth) : enter s stack = some s := if_pos h

theorem follow_firstItem (j : Json) (stack : List Frame) (ts : List Token) :
    follow (.firstItem, stack) (tokens j ++ ts) = follow (.value, stack) (tokens j ++ ts) := by
  cases j with
  | null | bool _ | int _ | real _ | str _ => rfl
  | arr items => cases items <;> rfl
  | obj members => cases members <;> rfl

mutual

theorem follow_tokens {depth : Nat} (j : Json) {stack : List Frame} (ts : List Token)
    (hj : isReadable depth j = true) (hroom : stack.length + depth ≤ maxDepth) :
    follow (.value, stack) (tokens j ++ ts) = (place j stack).bind (follow · ts) := by
  match depth, j with
  | _, null | _, bool _ | _, int _ | _, str _ => exact follow_last _ _ ts
  | depth + 1, arr [] =>
    have hopen : step (.value, stack) .openArray = some (.firstItem, .array [] :: stack) :=
      enter_eq (by omega)
    rw [tokens, List.cons_append, follow_cons hopen]
    exact follow_last _ _ ts
  | depth + 1, arr (j :: js) =>
    simp only [isReadable, itemsReadable, Bool.and_eq_true] at hj
    have hopen : step (.value, stack) .openArray = some (.firstItem, .array [] :: stack) :=
      enter_eq (by omega)
    rw [tokens, List.cons_append, List.append_assoc, follow_cons hopen, follow_firstItem,
      follow_tokens j _ hj.1 (by rw [List.length_cons]; omega)]
    exact follow_itemTokens js [j] ts hj.2 (by omega)
  | depth + 1, obj [] =>
    have hopen : step (.value, stack) .openObject = some (.firstName, .object [] :: stack) :=
      enter_eq (by omega)
    rw [tokens, List.cons_append, follow_cons hopen]
    exact follow_last _ _ ts
  | depth + 1, obj ((k, j) :: ms) =>
    simp only [isReadable, membersReadable, Bool.and_eq_true] at hj
    have hopen : step (.value, stack) .openObject = some (.firstName, .object [] :: stack) :=
      enter_eq (by omega)
    rw [tokens, List.cons_append, List.cons_append, List.cons_append, List.append_assoc,
      follow_cons hopen, follow_cons rfl, follow_cons rfl,
      follow_tokens j _ hj.1 (by rw [List.length_cons]; omega)]
    exact follow_memberTokens ms [(k, j)] ts hj.2 (by omega)

theorem follow_itemTokens {depth : Nat} (js acc : List Json) {stack : List Frame}
    (ts : List Token) (hj : itemsReadable depth js = true)
    (hroom : stack.length + 1 + depth ≤ maxDepth) :
    follow (.separator, .array acc :: stack) (itemTokens js ++ ts) =
      (place (arr (acc.reverse ++ js)) stack).bind (follow · ts) := by
  match js with
  | [] =>
    rw [List.append_nil]
    exact follow_last _ _ ts
  | j :: js =>
    simp only [itemsReadable, Bool.and_eq_true] at hj
    have hrest := follow_itemTokens js (j :: acc) ts hj.2 hroom
    rw [List.reverse_cons, List.append_assoc] at hrest
    rw [itemTokens, List.cons_append, List.append_assoc, follow_cons rfl,
      follow_tokens j _ hj.1 (by rwa [List.length_cons])]
    exact hrest

theorem follow_memberTokens {depth : Nat} (ms acc : List (String × Json)) {stack : List Frame}
    (ts : List Token) (hm : membersReadable depth ms = true)
    (hroom : stack.length + 1 + depth ≤ maxDepth) :
    follow (.separator, .object acc :: stack) (memberTokens ms ++ ts) =
      (place (obj (acc.reverse ++ ms)) stack).bind (follow · ts) := by
  match ms with
  | [] =>
    rw [List.append_nil]
    exact follow_last _ _ ts
  | (k, j) :: ms =>
    simp only [membersReadable, Bool.and_eq_true] at hm
    have hrest := follow_memberTokens ms ((k, j) :: acc) ts hm.2 hroom
    rw [List.reverse_cons, List.append_assoc] at hrest
    rw [memberTokens, List.cons_append, List.cons_append, List.cons_append, List.append_assoc,
      follow_cons rfl, follow_cons rfl, follow_cons rfl,
      follow_tokens j _ hm.1 (by rwa [List.length_cons])]
    exact hrest

end

end Reader

theorem ofTokens?_tokens (h : j.isReadable maxDepth = true) : ofTokens? (tokens j) = some j := by
  have hroom : ([] : List Frame).length + maxDepth ≤ maxDepth := by simp
  have hread := Reader.follow_tokens j [] h hroom
  rw [List.append_nil] at hread
  have hdone : (tokens j).foldlM Reader.step (.value, []) = some (.finished j, []) := hread
  rw [ofTokens?, hdone]

theorem ofText?_text (h : j.isReadable maxDepth = true) : ofText? j.text = some j := by
  have hscan := scan_render j h ends_nil
  rw [List.append_nil] at hscan
  rw [ofText?, text, String.toList_ofList, parse?, hscan]
  simpa [scan, finish] using ofTokens?_tokens h

theorem ofText?_pretty (h : j.isReadable maxDepth = true) : ofText? j.pretty = some j := by
  have hscan := scan_prettyAt 0 j h ends_nil
  rw [List.append_nil] at hscan
  rw [ofText?, pretty, String.toList_ofList, parse?, hscan]
  simpa [scan, finish] using ofTokens?_tokens h

/-! What is written can be read. -/

theorem itemsReadable_iff {depth : Nat} {js : List Json} :
    itemsReadable depth js = true ↔ ∀ j ∈ js, j.isReadable depth = true := by
  induction js with
  | nil => simp [itemsReadable]
  | cons j js ih => simp [itemsReadable, ih]

theorem membersReadable_iff {depth : Nat} {ms : List (String × Json)} :
    membersReadable depth ms = true ↔ ∀ m ∈ ms, m.2.isReadable depth = true := by
  induction ms with
  | nil => simp [membersReadable]
  | cons m ms ih => simp [membersReadable, ih]

mutual

theorem isReadable_canonical {depth : Nat} (j : Json) (h : j.isReadable depth = true) :
    j.canonical.isReadable depth = true := by
  match depth, j with
  | _, null | _, bool _ | _, int _ | _, str _ => simpa [canonical] using h
  | depth + 1, arr items =>
    rw [canonical, isReadable]
    rw [isReadable] at h
    exact itemsReadable_canonical items h
  | depth + 1, obj members =>
    rw [canonical, isReadable, membersReadable_iff]
    rintro ⟨name, j⟩ hmem
    rw [isReadable] at h
    have hgiven : (name, j) ∈ canonicalMembers members :=
      SortedMap.mem_of_get?_ofList (SortedMap.mem_entries.1 hmem)
    exact membersReadable_iff.1 (membersReadable_canonical members h) _ hgiven

theorem itemsReadable_canonical {depth : Nat} (js : List Json)
    (h : itemsReadable depth js = true) : itemsReadable depth (canonicalItems js) = true := by
  match js with
  | [] => rfl
  | j :: js =>
    simp only [itemsReadable, Bool.and_eq_true] at h
    simp only [canonicalItems, itemsReadable, Bool.and_eq_true]
    exact ⟨isReadable_canonical j h.1, itemsReadable_canonical js h.2⟩

theorem membersReadable_canonical {depth : Nat} (ms : List (String × Json))
    (h : membersReadable depth ms = true) : membersReadable depth (canonicalMembers ms) = true := by
  match ms with
  | [] => rfl
  | (k, j) :: ms =>
    simp only [membersReadable, Bool.and_eq_true] at h
    simp only [canonicalMembers, membersReadable, Bool.and_eq_true]
    exact ⟨isReadable_canonical j h.1, membersReadable_canonical ms h.2⟩

end

class Readable (depth : Nat) (α : Type) [Encode α] : Prop where
  readable : ∀ a : α, (encode a).isReadable depth = true

attribute [simp] Readable.readable

variable {depth : Nat} {α β : Type}

theorem readable_obj {ms : List (String × Json)}
    (h : ∀ m ∈ ms, m.2.isReadable depth = true) : (obj ms).isReadable (depth + 1) = true :=
  membersReadable_iff.2 h

instance : Readable depth String := ⟨fun _ => by cases depth <;> rfl⟩

instance : Readable depth Bool := ⟨fun _ => by cases depth <;> rfl⟩

instance : Readable depth (Option String) := ⟨fun o => by cases o <;> cases depth <;> rfl⟩

theorem isReadable_int {n : Int} : (int n).isReadable depth = isWord n := by
  cases depth <;> rfl

instance : Readable depth Int32 where
  readable n := by
    have hlow := n.le_toInt
    have hhigh := n.toInt_lt
    have hword : isWord n.toInt = true := by
      simp only [isWord, Bool.and_eq_true, decide_eq_true_eq]
      omega
    exact isReadable_int.trans hword

instance : Readable depth UInt16 where
  readable n := by
    have hhigh := n.toNat_lt
    have hword : isWord n.toNat = true := by
      simp only [isWord, Bool.and_eq_true, decide_eq_true_eq]
      omega
    exact isReadable_int.trans hword

instance [Encode α] [Readable depth α] : Readable (depth + 1) (List α) where
  readable l := itemsReadable_iff.2 (by simp)

instance [Encode β] [Readable depth β] : Readable (depth + 1) (SortedMap String β) where
  readable m := by
    refine membersReadable_iff.2 fun e he => ?_
    obtain ⟨e', -, rfl⟩ := List.mem_map.1 he
    exact Readable.readable e'.2

def texts [Encode α] (a : α) : List String :=
  [(encode a).text, (encode a).pretty, (encode a).canonical.text, (encode a).canonical.pretty]

theorem decode_ofText? [Encode α] [Decode α] [LawfulCodec α] [Readable maxDepth α] {a : α}
    {s : String} (h : s ∈ texts a) : (ofText? s).bind decode? = some a := by
  have hread : (encode a).isReadable maxDepth = true := Readable.readable a
  have hsorted := isReadable_canonical (encode a) hread
  have hplain : decode? (encode a) = some a := LawfulCodec.decode rearranges_id a
  have hcanonical : decode? (encode a).canonical = some a :=
    LawfulCodec.decode rearranges_canonical a
  simp only [texts, List.mem_cons, List.not_mem_nil, or_false] at h
  rcases h with rfl | rfl | rfl | rfl
  · rw [ofText?_text hread, Option.bind_some, hplain]
  · rw [ofText?_pretty hread, Option.bind_some, hplain]
  · rw [ofText?_text hsorted, Option.bind_some, hcanonical]
  · rw [ofText?_pretty hsorted, Option.bind_some, hcanonical]

end FleetControl.Json
