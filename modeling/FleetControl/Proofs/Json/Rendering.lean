import FleetControl.Json.Printer
import FleetControl.Json.Token
import FleetControl.Proofs.Decimal

/-!
Compact JSON text identifies the value. The text of a value without reals can be cut off from
whatever follows it, unless that goes on with a digit, so values with equal texts are equal. This is
what makes a digest of the text stand for the content.
-/

namespace FleetControl.Json

open Text

variable {c d : Char} {s t : String} {cs ds ls ms : List Char}

/-! Strings. -/

def unescape? : List Char → Option (Char × List Char)
  | '\\' :: 'u' :: '0' :: '0' :: a :: b :: cs =>
    match hexDigit? a, hexDigit? b with
    | some x, some y => some (Char.ofNat (16 * x + y), cs)
    | _, _ => none
  | '\\' :: c :: cs => (Token.simpleEscape? c).map fun d => (d, cs)
  | c :: cs => some (c, cs)
  | [] => none

theorem hexDigit?_hexDigit : ∀ n < 16, hexDigit? (hexDigit n) = some n := by decide

theorem unescape?_control (h : c.toNat < 0x20) (cs : List Char) :
    unescape? ('\\' :: 'u' :: '0' :: '0' :: hexPair c.toNat.toUInt8 ++ cs) = some (c, cs) := by
  have hbyte : c.toNat.toUInt8.toNat = c.toNat := by
    rw [Nat.toUInt8_eq, UInt8.toNat_ofNat']
    omega
  have hhigh := hexDigit?_hexDigit (c.toNat / 16) (by omega)
  have hlow := hexDigit?_hexDigit (c.toNat % 16) (by omega)
  have hvalue : 16 * (c.toNat / 16) + c.toNat % 16 = c.toNat := Nat.div_add_mod _ _
  simp only [hexPair, hbyte, List.cons_append, List.nil_append, unescape?, hhigh, hlow, hvalue,
    Char.ofNat_toNat]

theorem unescape?_plain (h : c ≠ '\\') (cs : List Char) : unescape? (c :: cs) = some (c, cs) := by
  unfold unescape?
  split
  · rename_i heq
    exact absurd (List.cons.inj heq).1 h
  · rename_i heq
    exact absurd (List.cons.inj heq).1 h
  · rename_i heq
    cases heq
    rfl
  · rename_i heq
    cases heq

theorem unescape?_escape (c : Char) (cs : List Char) :
    unescape? (escape c ++ cs) = some (c, cs) := by
  unfold escape
  -- One case for each short escape; they read back by computation.
  split
  · subst c; rfl
  split
  · subst c; rfl
  split
  · subst c; rfl
  split
  · subst c; rfl
  split
  · subst c; rfl
  split
  · subst c; rfl
  split
  · subst c; rfl
  split
  · exact unescape?_control ‹_› cs
  · exact unescape?_plain ‹_› cs

theorem escape_append_injective (h : escape c ++ cs = escape d ++ ds) : c = d ∧ cs = ds := by
  have hread := unescape?_escape c cs
  rw [h, unescape?_escape d ds] at hread
  cases hread
  exact ⟨rfl, rfl⟩

theorem escape_append_ne_quote : escape c ++ cs ≠ '"' :: ds := by
  intro h
  have hread := unescape?_escape c cs
  rw [h, unescape?_plain (by decide)] at hread
  cases hread
  have hquote : escape '"' = ['\\', '"'] := rfl
  rw [hquote] at h
  cases h

theorem escapes_injective
    (h : ls.flatMap escape ++ '"' :: cs = ms.flatMap escape ++ '"' :: ds) : ls = ms ∧ cs = ds := by
  induction ls generalizing ms with
  | nil =>
    cases ms with
    | nil => exact ⟨rfl, (List.cons.inj h).2⟩
    | cons d ms =>
      rw [List.flatMap_cons, List.append_assoc] at h
      exact absurd h.symm escape_append_ne_quote
  | cons c ls ih =>
    rw [List.flatMap_cons, List.append_assoc] at h
    cases ms with
    | nil => exact absurd h escape_append_ne_quote
    | cons d ms =>
      rw [List.flatMap_cons, List.append_assoc] at h
      obtain ⟨rfl, hrest⟩ := escape_append_injective h
      obtain ⟨rfl, htail⟩ := ih hrest
      exact ⟨rfl, htail⟩

theorem quoted_append_injective (h : quoted s ++ cs = quoted t ++ ds) : s = t ∧ cs = ds := by
  have hbody : s.toList.flatMap escape ++ '"' :: cs = t.toList.flatMap escape ++ '"' :: ds := by
    simpa [quoted] using h
  obtain ⟨hchars, hrest⟩ := escapes_injective hbody
  exact ⟨String.toList_inj.1 hchars, hrest⟩

/-! Integers. -/

def Stops (cs : List Char) : Prop := ∀ c, cs.head? = some c → c.isDigit = false

theorem stops_nil : Stops [] := by
  intro c h
  cases h

theorem stops_cons (h : c.isDigit = false) : Stops (c :: cs) := by
  intro d hd
  cases hd
  exact h

theorem takeWhile_digits (h : ∀ c ∈ ls, c.isDigit = true) (hstop : Stops cs) :
    (ls ++ cs).takeWhile Char.isDigit = ls := by
  rw [List.takeWhile_append_of_pos h]
  cases cs with
  | nil => simp
  | cons c cs => rw [List.takeWhile_cons, hstop c rfl]; simp

theorem ofNat_injective {m n : Nat} (h : ofNat m = ofNat n) : m = n := by
  have hm : Nat.ofDigitChars 10 (ofNat m) 0 = m := Nat.ofDigitChars_ten_toDigits
  have hn : Nat.ofDigitChars 10 (ofNat n) 0 = n := Nat.ofDigitChars_ten_toDigits
  rw [← hm, h, hn]

theorem ofNat_append_injective {m n : Nat} (hc : Stops cs) (hd : Stops ds)
    (h : ofNat m ++ cs = ofNat n ++ ds) : m = n ∧ cs = ds := by
  have hm := takeWhile_digits (fun _ hmem => isDigit_of_mem_ofNat (n := m) hmem) hc
  have hn := takeWhile_digits (fun _ hmem => isDigit_of_mem_ofNat (n := n) hmem) hd
  rw [h, hn] at hm
  obtain rfl := ofNat_injective hm.symm
  exact ⟨rfl, List.append_cancel_left h⟩

theorem ofNat_append_ne (hc : c.isDigit = false) (n : Nat) : ofNat n ++ cs ≠ c :: ds := by
  cases hdigits : ofNat n with
  | nil => exact absurd hdigits Nat.toDigits_ne_nil
  | cons d l =>
    have hd : d.isDigit = true := isDigit_of_mem_ofNat (n := n) (by rw [hdigits]; simp)
    intro h
    cases h
    rw [hd] at hc
    cases hc

theorem ofInt_append_injective {m n : Int} (hc : Stops cs) (hd : Stops ds)
    (h : ofInt m ++ cs = ofInt n ++ ds) : m = n ∧ cs = ds := by
  cases m with
  | ofNat m =>
    cases n with
    | ofNat n =>
      obtain ⟨rfl, hrest⟩ := ofNat_append_injective hc hd h
      exact ⟨rfl, hrest⟩
    | negSucc n => exact absurd h (ofNat_append_ne rfl m)
  | negSucc m =>
    cases n with
    | ofNat n => exact absurd h.symm (ofNat_append_ne rfl n)
    | negSucc n =>
      obtain ⟨hsucc, hrest⟩ := ofNat_append_injective hc hd (List.cons.inj h).2
      cases hsucc
      exact ⟨rfl, hrest⟩

/-! Values. -/

mutual

def isExact : Json → Bool
  | real _ => false
  | arr items => itemsExact items
  | obj members => membersExact members
  | _ => true

def itemsExact : List Json → Bool
  | [] => true
  | j :: js => isExact j && itemsExact js

def membersExact : List (String × Json) → Bool
  | [] => true
  | (_, j) :: ms => isExact j && membersExact ms

end

def announce : Json → Option Char
  | null => some 'n'
  | bool true => some 't'
  | bool false => some 'f'
  | int _ | real _ => none
  | str _ => some '"'
  | arr _ => some '['
  | obj _ => some '\x7b'

def announced (cs : List Char) : Option Char :=
  cs.head?.filter fun c => ['n', 't', 'f', '"', '[', '\x7b'].contains c

theorem announced_digit (h : c.isDigit = true) : announced (c :: cs) = none := by
  have hnot : ['n', 't', 'f', '"', '[', '\x7b'].contains c = false := by
    cases hc : ['n', 't', 'f', '"', '[', '\x7b'].contains c with
    | false => rfl
    | true =>
      simp only [List.contains_cons, List.contains_nil, Bool.or_false, Bool.or_eq_true,
        beq_iff_eq] at hc
      rcases hc with rfl | rfl | rfl | rfl | rfl | rfl <;> cases h
  rw [announced, List.head?_cons, Option.filter_some, hnot]
  rfl

theorem announced_ofNat (n : Nat) (cs : List Char) : announced (ofNat n ++ cs) = none := by
  cases hdigits : ofNat n with
  | nil => exact absurd hdigits Nat.toDigits_ne_nil
  | cons c l => exact announced_digit (isDigit_of_mem_ofNat (n := n) (by rw [hdigits]; simp))

theorem announced_render {j : Json} (h : j.isExact = true) (cs : List Char) :
    announced (render j ++ cs) = j.announce := by
  cases j with
  | null => rfl
  | bool b => cases b <;> rfl
  | int n =>
    cases n with
    | ofNat n => exact announced_ofNat n cs
    | negSucc n => rfl
  | real x => cases h
  | str s => rfl
  | arr items => cases items <;> rfl
  | obj members => cases members <;> rfl

theorem stops_renderItems (js : List Json) (cs : List Char) : Stops (renderItems js ++ cs) := by
  cases js <;> exact stops_cons rfl

theorem stops_renderMembers (ms : List (String × Json)) (cs : List Char) :
    Stops (renderMembers ms ++ cs) := by
  cases ms <;> exact stops_cons rfl

theorem render_append_ne_close {j : Json} (h : j.isExact = true) : render j ++ cs ≠ ']' :: ds := by
  cases j with
  | null => simp [render]
  | bool b => cases b <;> simp [render]
  | int n =>
    cases n with
    | ofNat n => exact ofNat_append_ne rfl n
    | negSucc n => simp [render, ofInt]
  | real x => cases h
  | str s => simp [render, quoted]
  | arr items => cases items <;> simp [render]
  | obj members => cases members <;> simp [render]

mutual

theorem render_append_injective (j k : Json) {cs ds : List Char} (hj : j.isExact = true)
    (hk : k.isExact = true) (hc : Stops cs) (hd : Stops ds)
    (h : render j ++ cs = render k ++ ds) : j = k ∧ cs = ds := by
  have hkind : j.announce = k.announce := by
    rw [← announced_render hj cs, h, announced_render hk ds]
  -- The first character settles the kind; the two values are then compared part by part.
  match j, k with
  | null, null => exact ⟨rfl, List.append_cancel_left h⟩
  | bool true, bool true => exact ⟨rfl, List.append_cancel_left h⟩
  | bool false, bool false => exact ⟨rfl, List.append_cancel_left h⟩
  | int m, int n =>
    obtain ⟨rfl, hrest⟩ := ofInt_append_injective hc hd h
    exact ⟨rfl, hrest⟩
  | str s, str t =>
    obtain ⟨rfl, hrest⟩ := quoted_append_injective h
    exact ⟨rfl, hrest⟩
  | arr [], arr [] => exact ⟨rfl, List.append_cancel_left h⟩
  | arr [], arr (k :: ks) =>
    simp only [isExact, itemsExact, Bool.and_eq_true] at hk
    simp only [render, List.cons_append, List.append_assoc, List.cons.injEq, true_and] at h
    exact absurd h.symm (render_append_ne_close hk.1)
  | arr (j :: js), arr [] =>
    simp only [isExact, itemsExact, Bool.and_eq_true] at hj
    simp only [render, List.cons_append, List.append_assoc, List.cons.injEq, true_and] at h
    exact absurd h (render_append_ne_close hj.1)
  | arr (j :: js), arr (k :: ks) =>
    simp only [isExact, itemsExact, Bool.and_eq_true] at hj hk
    simp only [render, List.cons_append, List.append_assoc, List.cons.injEq, true_and] at h
    obtain ⟨rfl, hitems⟩ := render_append_injective j k hj.1 hk.1 (stops_renderItems js cs)
      (stops_renderItems ks ds) h
    obtain ⟨rfl, hrest⟩ := renderItems_append_injective js ks hj.2 hk.2 hitems
    exact ⟨rfl, hrest⟩
  | obj [], obj [] => exact ⟨rfl, List.append_cancel_left h⟩
  | obj [], obj ((t, k) :: ks) => simp [render, quoted] at h
  | obj ((s, j) :: js), obj [] => simp [render, quoted] at h
  | obj ((s, j) :: js), obj ((t, k) :: ks) =>
    simp only [isExact, membersExact, Bool.and_eq_true] at hj hk
    simp only [render, List.cons_append, List.append_assoc, List.cons.injEq, true_and] at h
    obtain ⟨rfl, hvalue⟩ := quoted_append_injective h
    obtain ⟨rfl, hmembers⟩ := render_append_injective j k hj.1 hk.1 (stops_renderMembers js cs)
      (stops_renderMembers ks ds) (List.cons.inj hvalue).2
    obtain ⟨rfl, hrest⟩ := renderMembers_append_injective js ks hj.2 hk.2 hmembers
    exact ⟨rfl, hrest⟩

theorem renderItems_append_injective (js ks : List Json) {cs ds : List Char}
    (hj : itemsExact js = true) (hk : itemsExact ks = true)
    (h : renderItems js ++ cs = renderItems ks ++ ds) : js = ks ∧ cs = ds := by
  match js, ks with
  | [], [] => exact ⟨rfl, List.append_cancel_left h⟩
  | [], k :: ks => simp [renderItems] at h
  | j :: js, [] => simp [renderItems] at h
  | j :: js, k :: ks =>
    simp only [itemsExact, Bool.and_eq_true] at hj hk
    simp only [renderItems, List.cons_append, List.append_assoc, List.cons.injEq, true_and] at h
    obtain ⟨rfl, hitems⟩ := render_append_injective j k hj.1 hk.1 (stops_renderItems js cs)
      (stops_renderItems ks ds) h
    obtain ⟨rfl, hrest⟩ := renderItems_append_injective js ks hj.2 hk.2 hitems
    exact ⟨rfl, hrest⟩

theorem renderMembers_append_injective (ms ns : List (String × Json)) {cs ds : List Char}
    (hm : membersExact ms = true) (hn : membersExact ns = true)
    (h : renderMembers ms ++ cs = renderMembers ns ++ ds) : ms = ns ∧ cs = ds := by
  match ms, ns with
  | [], [] => exact ⟨rfl, List.append_cancel_left h⟩
  | [], (t, k) :: ns => simp [renderMembers] at h
  | (s, j) :: ms, [] => simp [renderMembers] at h
  | (s, j) :: ms, (t, k) :: ns =>
    simp only [membersExact, Bool.and_eq_true] at hm hn
    simp only [renderMembers, List.cons_append, List.append_assoc, List.cons.injEq, true_and] at h
    obtain ⟨rfl, hvalue⟩ := quoted_append_injective h
    obtain ⟨rfl, hmembers⟩ := render_append_injective j k hm.1 hn.1 (stops_renderMembers ms cs)
      (stops_renderMembers ns ds) (List.cons.inj hvalue).2
    obtain ⟨rfl, hrest⟩ := renderMembers_append_injective ms ns hm.2 hn.2 hmembers
    exact ⟨rfl, hrest⟩

end

/-- Values without reals that have one text are one value. -/
theorem text_injective {j k : Json} (hj : j.isExact = true) (hk : k.isExact = true)
    (h : j.text = k.text) : j = k := by
  have hrender : render j ++ [] = render k ++ [] := by
    rw [List.append_nil, List.append_nil]
    exact String.ofList_inj.1 h
  exact (render_append_injective j k hj hk stops_nil stops_nil hrender).1

end FleetControl.Json
