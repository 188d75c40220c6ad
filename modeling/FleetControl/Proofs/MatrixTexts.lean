import FleetControl.Proofs.Json.Reading
import FleetControl.Proofs.Marks

/-!
Load matrices as the database keeps them. A matrix is a text in one column, and the text that is sent
for a matrix is read back as that matrix, whatever the names and weights in it; so a store may as well
hold the matrices themselves. A column takes any text but for null characters, and JSON has none: it
escapes them.
-/

namespace FleetControl

namespace Json

open Text

variable {c : Char} {cs ds : List Char}

def isControlFree (cs : List Char) : Bool := cs.all fun c => 0x20 ≤ c.toNat

theorem controlFree_iff : isControlFree cs = true ↔ ∀ c ∈ cs, 0x20 ≤ c.toNat := by
  rw [isControlFree, List.all_eq_true]
  simp only [decide_eq_true_eq]

theorem controlFree_cons :
    isControlFree (c :: cs) = true ↔ 0x20 ≤ c.toNat ∧ isControlFree cs = true := by
  simp only [controlFree_iff, List.forall_mem_cons]

theorem controlFree_append :
    isControlFree (cs ++ ds) = true ↔ isControlFree cs = true ∧ isControlFree ds = true := by
  simp only [controlFree_iff, List.forall_mem_append]

theorem controlFree_hexPair (b : UInt8) : isControlFree (hexPair b) = true := by
  have hdigit : ∀ n < 16, 0x20 ≤ (hexDigit n).toNat := by decide
  have hbyte := b.toNat_lt
  simp only [hexPair, controlFree_cons]
  exact ⟨hdigit _ (by omega), hdigit _ (by omega), rfl⟩

theorem controlFree_escape (c : Char) : isControlFree (escape c) = true := by
  unfold escape
  iterate 7
    split
    · rfl
  split
  · simp only [controlFree_cons]
    exact ⟨by decide, by decide, by decide, by decide, controlFree_hexPair _⟩
  · exact controlFree_cons.2 ⟨Nat.le_of_not_lt ‹_›, rfl⟩

theorem controlFree_quoted (s : String) : isControlFree (quoted s) = true := by
  simp only [quoted, controlFree_cons, controlFree_append]
  refine ⟨by decide, controlFree_iff.2 fun c hc => ?_, by decide, rfl⟩
  obtain ⟨d, -, hd⟩ := List.mem_flatMap.1 hc
  exact controlFree_iff.1 (controlFree_escape d) c hd

theorem controlFree_ofInt (n : Int) : isControlFree (ofInt n) = true := by
  have hdigits (n : Nat) : isControlFree (ofNat n) = true := by
    refine controlFree_iff.2 fun c hc => ?_
    have hdigit := isDigit_of_mem_ofNat hc
    simp only [Char.isDigit, Bool.and_eq_true, decide_eq_true_eq] at hdigit
    exact Nat.le_trans (by decide) (UInt32.le_iff_toNat_le.1 hdigit.1)
  cases n with
  | ofNat n => exact hdigits n
  | negSucc n => exact controlFree_cons.2 ⟨by decide, hdigits (n + 1)⟩

mutual

theorem controlFree_render (j : Json) (h : j.isExact = true) : isControlFree (render j) = true := by
  match j with
  | null | bool true | bool false | arr [] | obj [] => rfl
  | int n => exact controlFree_ofInt n
  | str s => exact controlFree_quoted s
  | arr (j :: js) =>
    simp only [isExact, itemsExact, Bool.and_eq_true] at h
    simp only [render, controlFree_cons, controlFree_append]
    exact ⟨by decide, controlFree_render j h.1, controlFree_renderItems js h.2⟩
  | obj ((k, j) :: ms) =>
    simp only [isExact, membersExact, Bool.and_eq_true] at h
    simp only [render, controlFree_cons, controlFree_append]
    exact ⟨by decide, controlFree_quoted k, by decide, controlFree_render j h.1,
      controlFree_renderMembers ms h.2⟩

theorem controlFree_renderItems (js : List Json) (h : itemsExact js = true) :
    isControlFree (renderItems js) = true := by
  match js with
  | [] => rfl
  | j :: js =>
    simp only [itemsExact, Bool.and_eq_true] at h
    simp only [renderItems, controlFree_cons, controlFree_append]
    exact ⟨by decide, controlFree_render j h.1, controlFree_renderItems js h.2⟩

theorem controlFree_renderMembers (ms : List (String × Json)) (h : membersExact ms = true) :
    isControlFree (renderMembers ms) = true := by
  match ms with
  | [] => rfl
  | (k, j) :: ms =>
    simp only [membersExact, Bool.and_eq_true] at h
    simp only [renderMembers, controlFree_cons, controlFree_append]
    exact ⟨by decide, controlFree_quoted k, by decide, controlFree_render j h.1,
      controlFree_renderMembers ms h.2⟩

end

end Json

namespace LoadMatrix

open Json

instance : LawfulCodec LoadMatrix where
  exact m := LawfulCodec.exact m.rows
  decode {f} hf m := by
    have hrows : decode? (f (encode m.rows)) = some m.rows := LawfulCodec.decode hf m.rows
    have hmatrix : decode? (f (encode m)) = (decode? (f (encode m.rows))).map LoadMatrix.mk := rfl
    rw [hmatrix, hrows, Option.map_some]

/-- Rows are nested in the matrix, and weights in the rows. -/
instance : Readable maxDepth LoadMatrix where
  readable m :=
    have : Readable maxDepth (SortedMap String LoadRow) :=
      inferInstanceAs (Readable (125 + 2) (SortedMap String (SortedMap String Int32)))
    Readable.readable m.rows

theorem ofStored_of_mem_texts {m : LoadMatrix} {raw : String} (h : raw ∈ texts m) :
    ofStored raw = .ok m := by
  have hread : ofText? raw = some m := decode_ofText? h
  rw [ofStored, hread]

end LoadMatrix

namespace Store.Database

open Sql

variable {s : Session} {cluster : ClusterId}

/-- The statement puts the text in the column of the matrix of the cluster. -/
structure PutsText (cluster : ClusterId) (product : ProductId) (raw : String) (st : Statement) :
    Prop where
  mark : st.mark = .write cluster.val
  args : st.args = [arg cluster, arg product, .text raw]

theorem putLoadMatrix_told (cluster : ClusterId) (product : ProductId) (m : LoadMatrix) :
    ∃ st, PutsText cluster product (encode m).text st ∧ ∀ s : Session, s.alive = true →
      (exchange (.putLoadMatrix cluster product m) s).2 = s.told st := by
  refine ⟨_, ?_, fun s halive => run_told _ halive rfl⟩
  exact ⟨Statement.mark_phrase .write 3 (by decide +kernel) rfl, rfl⟩

theorem fetchOptional_text (halive : s.alive = true) {context column raw : String} {st : Statement}
    {cells : Row} {rows : List Row} {rest : List Reply}
    (hreplies : s.replies = .rows (((column, .text raw) :: cells) :: rows) :: rest) :
    ∃ s', fetchOptional context st (Row.first? (α := String)) s = (.ok (some raw), s') := by
  obtain ⟨alive, replies, refused, sent⟩ := s
  obtain rfl : alive = true := halive
  obtain rfl : replies = _ := hreplies
  exact ⟨_, rfl⟩

theorem fetchLoadMatrix_text (halive : s.alive = true) {column raw : String} {cells : Row}
    {rows : List Row} {rest : List Reply}
    (hreplies : s.replies = .rows (((column, .text raw) :: cells) :: rows) :: rest) :
    (exchange (.fetchLoadMatrix cluster) s).1 = (LoadMatrix.ofStored raw).map some := by
  obtain ⟨s', hfetch⟩ := fetchOptional_text halive hreplies
  rw [exchange, run_bind_ok hfetch]
  dsimp only
  cases LoadMatrix.ofStored raw <;> rfl

/-- The text that is put for a matrix fits the column, and is read back as the matrix. -/
theorem putLoadMatrix_comes_back (cluster : ClusterId) (product : ProductId) (m : LoadMatrix) :
    ∃ raw st, PutsText cluster product raw st ∧
      (∀ s : Session, s.alive = true →
        (exchange (.putLoadMatrix cluster product m) s).2 = s.told st) ∧
      Json.isControlFree raw.toList = true ∧ LoadMatrix.ofStored raw = .ok m ∧
      ∀ (s : Session) (column : String) (cells : Row) (rows : List Row) (rest : List Reply),
        s.alive = true → s.replies = .rows (((column, .text raw) :: cells) :: rows) :: rest →
        (exchange (.fetchLoadMatrix cluster) s).1 = .ok (some m) := by
  obtain ⟨st, hputs, htold⟩ := putLoadMatrix_told cluster product m
  have hfits : Json.isControlFree (encode m).text.toList = true := by
    rw [Json.text, String.toList_ofList]
    exact Json.controlFree_render _ (Json.LawfulCodec.exact m)
  have hstored : LoadMatrix.ofStored (encode m).text = .ok m :=
    LoadMatrix.ofStored_of_mem_texts List.mem_cons_self
  refine ⟨(encode m).text, st, hputs, htold, hfits, hstored, ?_⟩
  intro s column cells rows rest halive hreplies
  rw [fetchLoadMatrix_text halive hreplies, hstored]
  rfl

theorem escapedMatrix_comes_back :
    let row : LoadRow := .ofList [("\\\n\x00é", -2147483648), (LoadMatrix.blackhole, 2147483647)]
    let m : LoadMatrix := ⟨.ofList [("\"", row), ("", ∅)]⟩
    ∃ raw st, PutsText ⟨7⟩ ⟨3⟩ raw st ∧
      (exchange (.putLoadMatrix ⟨7⟩ ⟨3⟩ m) (.start [] [])).2 = (Session.start [] []).told st ∧
      LoadMatrix.ofStored raw = .ok m ∧
      (exchange (.fetchLoadMatrix ⟨7⟩) (.start [.rows [[("lb_matrix", .text raw)]]] [])).1 =
        .ok (some m) := by
  intro row m
  obtain ⟨raw, st, hputs, htold, -, hstored, hfetch⟩ := putLoadMatrix_comes_back ⟨7⟩ ⟨3⟩ m
  exact ⟨raw, st, hputs, htold _ rfl, hstored, hfetch _ _ [] [] [] rfl rfl⟩

end Store.Database
end FleetControl
