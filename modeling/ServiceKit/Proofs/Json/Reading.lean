import Mathlib
import ServiceKit.Proofs.Json.Tokens

/-!
Reading of documents: a text is read exactly if it is a document whose nesting is not too deep, and
what is read is what the document denotes.
-/

namespace ServiceKit.Json

open Text

/-! ### What is read is a document -/

mutual

theorem readValue_ok {n d : Nat} {s rest : Text} {x : Json Literal}
    (h : readValue n d s = .ok (x, rest)) :
    ∃ w t, s = w ++ (t ++ rest) ∧ Blanks w ∧ IsValue t x ∧ x.depth ≤ d := by
  cases n with
  | zero => cases h
  | succ n =>
      rw [readValue] at h
      obtain ⟨w, hs, hw⟩ := exists_skipBlanks s
      split at h
      · cases h
      rename_i b s₁ hskip
      rw [hskip] at hs
      subst hs
      split at h
      · rename_i hb
        subst hb
        split at h
        · rename_i hread
          obtain ⟨rfl, rfl⟩ := Prod.mk.inj (Except.ok.inj h)
          obtain ⟨body, ps, rfl, hbody, rfl⟩ := readString_ok hread
          exact ⟨w, _, by simp, hw, .string hbody, Nat.zero_le _⟩
        · cases h
      split at h
      · rename_i hb
        subst hb
        split at h
        · cases h
        rename_i d
        obtain ⟨v, hs₁, hv⟩ := exists_skipBlanks s₁
        split at h
        · rename_i hskip₁
          obtain ⟨rfl, rfl⟩ := Prod.mk.inj (Except.ok.inj h)
          rw [hs₁, hskip₁]
          exact ⟨w, _, by simp, hw, .noElements hv, Nat.le_add_left ..⟩
        · split at h
          · rename_i hread
            obtain ⟨rfl, rfl⟩ := Prod.mk.inj (Except.ok.inj h)
            obtain ⟨t, ys, ht, hys, rfl, hdepth⟩ := readElements_ok hread
            rw [hs₁, ht]
            exact ⟨w, _, by simp, hw, .array (hys.pad hv), Nat.succ_le_succ hdepth⟩
          · cases h
      split at h
      · rename_i hb
        subst hb
        split at h
        · cases h
        rename_i d
        obtain ⟨v, hs₁, hv⟩ := exists_skipBlanks s₁
        split at h
        · rename_i hskip₁
          obtain ⟨rfl, rfl⟩ := Prod.mk.inj (Except.ok.inj h)
          rw [hs₁, hskip₁]
          exact ⟨w, _, by simp, hw, .noMembers hv, Nat.le_add_left ..⟩
        · split at h
          · rename_i hread
            obtain ⟨rfl, rfl⟩ := Prod.mk.inj (Except.ok.inj h)
            obtain ⟨t, ys, ht, hys, rfl, hdepth⟩ := readMembers_ok hread
            rw [hs₁, ht]
            exact ⟨w, _, by simp, hw, .object (hys.pad hv), Nat.succ_le_succ hdepth⟩
          · cases h
      split at h
      · rename_i hb
        subst hb
        split at h
        · rename_i hread
          obtain ⟨rfl, rfl⟩ := Prod.mk.inj (Except.ok.inj h)
          obtain ⟨rfl, hl, hneg⟩ := readMagnitude_ok hread
          exact ⟨w, _, by simp [Literal.text_eq, hneg], hw, .number hl, Nat.zero_le _⟩
        · cases h
      split at h
      · split at h
        · rename_i hread
          obtain ⟨rfl, rfl⟩ := Prod.mk.inj (Except.ok.inj h)
          obtain ⟨hs₁, hl, hneg⟩ := readMagnitude_ok hread
          exact ⟨w, _, by simp [Literal.text_eq, hneg, hs₁], hw, .number hl, Nat.zero_le _⟩
        · cases h
      split at h
      · rename_i hb
        subst hb
        split at h
        · rename_i hread
          obtain ⟨rfl, rfl⟩ := Prod.mk.inj (Except.ok.inj h)
          rw [readWord_ok hread]
          exact ⟨w, _, rfl, hw, .trueWord, Nat.zero_le _⟩
        · cases h
      split at h
      · rename_i hb
        subst hb
        split at h
        · rename_i hread
          obtain ⟨rfl, rfl⟩ := Prod.mk.inj (Except.ok.inj h)
          rw [readWord_ok hread]
          exact ⟨w, _, rfl, hw, .falseWord, Nat.zero_le _⟩
        · cases h
      split at h
      · rename_i hb
        subst hb
        split at h
        · rename_i hread
          obtain ⟨rfl, rfl⟩ := Prod.mk.inj (Except.ok.inj h)
          rw [readWord_ok hread]
          exact ⟨w, _, rfl, hw, .nullWord, Nat.zero_le _⟩
        · cases h
      · cases h
termination_by n

theorem readElements_ok {n d : Nat} {acc xs : List (Json Literal)} {s rest : Text}
    (h : readElements n d acc s = .ok (xs, rest)) :
    ∃ t ys, s = t ++ 0x5D :: rest ∧ IsElements t ys ∧ xs = acc.reverse ++ ys ∧
      elementsDepth ys ≤ d := by
  cases n with
  | zero => cases h
  | succ n =>
      rw [readElements] at h
      split at h
      · cases h
      rename_i x s₁ hread
      obtain ⟨w, t, rfl, hw, ht, hdepth⟩ := readValue_ok hread
      obtain ⟨v, hs₁, hv⟩ := exists_skipBlanks s₁
      have hx : IsDocument (w ++ (t ++ v)) x := .mk hw ht hv
      split at h
      · rename_i hskip
        obtain ⟨t', ys, rfl, hys, rfl, hdepth'⟩ := readElements_ok h
        rw [hs₁, hskip]
        exact ⟨_, x :: ys, by simp, .cons hx hys, by simp, max_le hdepth hdepth'⟩
      · rename_i hskip
        obtain ⟨rfl, rfl⟩ := Prod.mk.inj (Except.ok.inj h)
        rw [hs₁, hskip]
        exact ⟨_, [x], by simp, .last hx, by simp, max_le hdepth (Nat.zero_le _)⟩
      · cases h
termination_by n

theorem readMembers_ok {n d : Nat} {acc ms : List (Text × Json Literal)} {s rest : Text}
    (h : readMembers n d acc s = .ok (ms, rest)) :
    ∃ t ys, s = t ++ 0x7D :: rest ∧ IsMembers t ys ∧ ms = acc.reverse ++ ys ∧
      membersDepth ys ≤ d := by
  cases n with
  | zero => cases h
  | succ n =>
      rw [readMembers] at h
      obtain ⟨w, hs, hw⟩ := exists_skipBlanks s
      split at h
      · rename_i s₁ hskip
        rw [hskip] at hs
        subst hs
        split at h
        · cases h
        rename_i k s₂ hkey
        obtain ⟨body, ps, rfl, hbody, rfl⟩ := readString_ok hkey
        obtain ⟨w₂, hs₂, hw₂⟩ := exists_skipBlanks s₂
        split at h
        · rename_i s₃ hskip₂
          rw [hskip₂] at hs₂
          subst hs₂
          split at h
          · cases h
          rename_i x s₄ hread
          obtain ⟨w₃, t, rfl, hw₃, ht, hdepth⟩ := readValue_ok hread
          obtain ⟨v, hs₄, hv⟩ := exists_skipBlanks s₄
          have hm := IsMember.mk hw hbody hw₂ (.mk hw₃ ht hv)
          split at h
          · rename_i hskip₄
            obtain ⟨t', ys, rfl, hys, rfl, hdepth'⟩ := readMembers_ok h
            rw [hs₄, hskip₄]
            exact ⟨_, (bodyText ps, x) :: ys, by simp, .cons hm hys, by simp, max_le hdepth hdepth'⟩
          · rename_i hskip₄
            obtain ⟨rfl, rfl⟩ := Prod.mk.inj (Except.ok.inj h)
            rw [hs₄, hskip₄]
            exact ⟨_, [(bodyText ps, x)], by simp, .last hm, by simp, max_le hdepth (Nat.zero_le _)⟩
          · cases h
        · cases h
      · cases h
termination_by n

end

/-! ### Documents are read -/

/-- A value starts with a byte that is no blank and closes nothing. -/
theorem IsValue.head {t : Text} {x : Json Literal} (h : IsValue t x) :
    ∃ b s, t = b :: s ∧ isBlank b = false ∧ b ≠ 0x5D := by
  cases h with
  | nullWord => exact ⟨_, _, rfl, by decide, by decide⟩
  | trueWord => exact ⟨_, _, rfl, by decide, by decide⟩
  | falseWord => exact ⟨_, _, rfl, by decide, by decide⟩
  | string => exact ⟨_, _, rfl, by decide, by decide⟩
  | noElements => exact ⟨_, _, rfl, by decide, by decide⟩
  | array => exact ⟨_, _, rfl, by decide, by decide⟩
  | noMembers => exact ⟨_, _, rfl, by decide, by decide⟩
  | object => exact ⟨_, _, rfl, by decide, by decide⟩
  | number hl =>
      rename_i l
      rw [Literal.text_eq]
      cases l.negative with
      | true => exact ⟨_, _, rfl, by decide, by decide⟩
      | false =>
          obtain ⟨b, ds, hb, hdigit⟩ := hl.exists_digit
          exact ⟨b, _, by rw [hb]; rfl, isBlank_of_isDigit hdigit, fun h => by
            subst h; exact absurd hdigit (by decide)⟩

/-- Blanks in front of a value make no difference. -/
theorem readValue_blanks {w : Text} (hw : Blanks w) (n d : Nat) (s : Text) :
    readValue n d (w ++ s) = readValue n d s := by
  cases n with
  | zero => rfl
  | succ n => rw [readValue, readValue, skipBlanks_append hw]

/-- A bracket that closes something can follow a value. -/
theorem closes_cons {b : UInt8} (hb : b ∈ ([0x2C, 0x5D, 0x7D] : List UInt8)) (s : Text) :
    Closes (b :: s) := by
  intro c hc
  obtain rfl := Option.some.inj hc
  simp only [List.mem_cons, List.not_mem_nil, or_false] at hb ⊢
  tauto

theorem readValue_number {l : Literal} (hl : l.WellFormed) {rest : Text} (hrest : Closes rest)
    (n d : Nat) : readValue (n + 1) d (l.text ++ rest) = .ok (.number l, rest) := by
  have hread := readMagnitude_append hl hrest
  rw [Literal.text_eq]
  cases hneg : l.negative with
  | true =>
      rw [hneg] at hread
      change readValue (n + 1) d (0x2D :: (l.unsigned ++ rest)) = _
      rw [readValue, skipBlanks_cons rfl]
      simp [hread]
  | false =>
      rw [hneg] at hread
      obtain ⟨b, s, hs, hdigit⟩ := hl.exists_digit
      rw [hs] at hread ⊢
      change readValue (n + 1) d (b :: (s ++ rest)) = _
      rw [readValue, skipBlanks_cons (isBlank_of_isDigit hdigit)]
      have hne : ∀ c, Text.isDigit c = false → b ≠ c := by
        rintro c hc rfl
        rw [hdigit] at hc
        cases hc
      rw [List.cons_append] at hread
      simp [hne 0x22 rfl, hne 0x5B rfl, hne 0x7B rfl, hne 0x2D rfl, hdigit, hread]

theorem readValue_string {s : Text} {ps : List Piece} (hs : IsBody s ps) (rest : Text) (n d : Nat) :
    readValue (n + 1) d (0x22 :: (s ++ [0x22]) ++ rest) = .ok (.string (bodyText ps), rest) := by
  have hread := readString_append hs rest
  rw [List.cons_append, List.append_assoc, readValue, skipBlanks_cons rfl]
  simp [hread]

theorem readValue_word {word : Text} {x : Json Literal} (rest : Text) (n d : Nat)
    (h : (word, x) ∈ [(utf8 "null", .null), (utf8 "true", .bool true), (utf8 "false", .bool false)]) :
    readValue (n + 1) d (word ++ rest) = .ok (x, rest) := by
  simp only [List.mem_cons, Prod.mk.injEq, List.not_mem_nil, or_false] at h
  rcases h with ⟨rfl, rfl⟩ | ⟨rfl, rfl⟩ | ⟨rfl, rfl⟩
  · change readValue (n + 1) d (0x6E :: (utf8 "ull" ++ rest)) = _
    rw [readValue, skipBlanks_cons rfl]
    simp [readWord_append, Text.isDigit]
  · change readValue (n + 1) d (0x74 :: (utf8 "rue" ++ rest)) = _
    rw [readValue, skipBlanks_cons rfl]
    simp [readWord_append, Text.isDigit]
  · change readValue (n + 1) d (0x66 :: (utf8 "alse" ++ rest)) = _
    rw [readValue, skipBlanks_cons rfl]
    simp [readWord_append, Text.isDigit]

/-! Elements and members are read with or without the blanks in front of them. -/

theorem readElements_skipBlanks (n d : Nat) (acc : List (Json Literal)) (s : Text) :
    readElements n d acc (skipBlanks s) = readElements n d acc s := by
  cases n with
  | zero => rfl
  | succ n =>
      obtain ⟨w, hs, hw⟩ := exists_skipBlanks s
      have hvalue : readValue n d (skipBlanks s) = readValue n d s := by
        conv_rhs => rw [hs, readValue_blanks hw]
      rw [readElements, readElements, hvalue]

theorem skipBlanks_skipBlanks (s : Text) : skipBlanks (skipBlanks s) = skipBlanks s := by
  obtain ⟨w, hs, hw⟩ := exists_skipBlanks s
  conv_rhs => rw [hs, skipBlanks_append hw]

theorem readMembers_skipBlanks (n d : Nat) (acc : List (Text × Json Literal)) (s : Text) :
    readMembers n d acc (skipBlanks s) = readMembers n d acc s := by
  cases n with
  | zero => rfl
  | succ n => rw [readMembers, readMembers, skipBlanks_skipBlanks]

theorem IsElements.skipBlanks_eq {s : Text} {xs : List (Json Literal)} (h : IsElements s xs)
    (rest : Text) : ∃ b t, skipBlanks (s ++ rest) = b :: t ∧ b ≠ 0x5D := by
  have hdocument : ∀ {s x}, IsDocument s x → ∀ r, ∃ b t, skipBlanks (s ++ r) = b :: t ∧ b ≠ 0x5D := by
    intro s x h r
    cases h with
    | mk hv hs hw =>
        obtain ⟨b, t, rfl, hblank, hne⟩ := hs.head
        rw [List.append_assoc, skipBlanks_append hv]
        exact ⟨b, _, skipBlanks_cons hblank _, hne⟩
  cases h with
  | last h => exact hdocument h rest
  | cons h ht =>
      rw [List.append_assoc]
      exact hdocument h _

theorem IsMembers.skipBlanks_eq {s : Text} {ms : List (Text × Json Literal)} (h : IsMembers s ms)
    (rest : Text) : ∃ t, skipBlanks (s ++ rest) = 0x22 :: t := by
  have hmember : ∀ {s m}, IsMember s m → ∀ r, ∃ t, skipBlanks (s ++ r) = 0x22 :: t := by
    intro s m h r
    cases h with
    | mk hv hk hw hs =>
        rw [List.append_assoc, skipBlanks_append hv]
        exact ⟨_, skipBlanks_cons rfl _⟩
  cases h with
  | last h => exact hmember h rest
  | cons h ht =>
      rw [List.append_assoc]
      exact hmember h _

theorem readValue_array {s : Text} {xs : List (Json Literal)} (hs : IsElements s xs) {rest : Text}
    {n d : Nat} (hread : readElements n d [] (s ++ 0x5D :: rest) = .ok (xs, rest)) :
    readValue (n + 1) (d + 1) (0x5B :: (s ++ [0x5D]) ++ rest) = .ok (.array xs, rest) := by
  obtain ⟨b, t, hskip, hne⟩ := hs.skipBlanks_eq (0x5D :: rest)
  rw [← readElements_skipBlanks, hskip] at hread
  rw [List.cons_append, List.append_assoc, readValue, skipBlanks_cons rfl]
  simp only [List.cons_append, List.nil_append, hskip]
  simp [hne, hread]

theorem readValue_object {s : Text} {ms : List (Text × Json Literal)} (hs : IsMembers s ms)
    {rest : Text} {n d : Nat} (hread : readMembers n d [] (s ++ 0x7D :: rest) = .ok (ms, rest)) :
    readValue (n + 1) (d + 1) (0x7B :: (s ++ [0x7D]) ++ rest) = .ok (.object ms, rest) := by
  obtain ⟨t, hskip⟩ := hs.skipBlanks_eq (0x7D :: rest)
  rw [← readMembers_skipBlanks, hskip] at hread
  rw [List.cons_append, List.append_assoc, readValue, skipBlanks_cons rfl]
  simp only [List.cons_append, List.nil_append, hskip]
  simp [hread]

theorem readValue_noElements {w : Text} (hw : Blanks w) (rest : Text) (n d : Nat) :
    readValue (n + 1) (d + 1) (0x5B :: (w ++ [0x5D]) ++ rest) = .ok (.array [], rest) := by
  have hskip : skipBlanks (w ++ 0x5D :: rest) = 0x5D :: rest := skipBlanks_blanks_cons hw rfl _
  rw [List.cons_append, List.append_assoc, readValue, skipBlanks_cons rfl]
  simp [hskip]

theorem readValue_noMembers {w : Text} (hw : Blanks w) (rest : Text) (n d : Nat) :
    readValue (n + 1) (d + 1) (0x7B :: (w ++ [0x7D]) ++ rest) = .ok (.object [], rest) := by
  have hskip : skipBlanks (w ++ 0x7D :: rest) = 0x7D :: rest := skipBlanks_blanks_cons hw rfl _
  rw [List.cons_append, List.append_assoc, readValue, skipBlanks_cons rfl]
  simp [hskip]

/-! The steps of the two loops. -/

theorem readElements_last {n d : Nat} {acc : List (Json Literal)} {s w rest : Text} {x : Json Literal}
    (hread : readValue n d s = .ok (x, w ++ 0x5D :: rest)) (hw : Blanks w) :
    readElements (n + 1) d acc s = .ok ((x :: acc).reverse, rest) := by
  have hskip : skipBlanks (w ++ 0x5D :: rest) = 0x5D :: rest := skipBlanks_blanks_cons hw rfl _
  rw [readElements, hread]
  simp only [hskip]

theorem readElements_cons {n d : Nat} {acc : List (Json Literal)} {s w rest : Text} {x : Json Literal}
    (hread : readValue n d s = .ok (x, w ++ 0x2C :: rest)) (hw : Blanks w) :
    readElements (n + 1) d acc s = readElements n d (x :: acc) rest := by
  have hskip : skipBlanks (w ++ 0x2C :: rest) = 0x2C :: rest := skipBlanks_blanks_cons hw rfl _
  rw [readElements, hread]
  simp only [hskip]

/-- The key of a member is read, and its value is what follows the colon. -/
theorem readMembers_key {v k w : Text} {ps : List Piece} (hv : Blanks v) (hk : IsBody k ps)
    (hw : Blanks w) {n d : Nat} (acc : List (Text × Json Literal)) {s rest : Text} {x : Json Literal}
    (hread : readValue n d s = .ok (x, rest)) :
    (∀ r, skipBlanks rest = 0x7D :: r →
      readMembers (n + 1) d acc (v ++ 0x22 :: (k ++ 0x22 :: (w ++ 0x3A :: s))) =
        .ok (((bodyText ps, x) :: acc).reverse, r)) ∧
    (∀ r, skipBlanks rest = 0x2C :: r →
      readMembers (n + 1) d acc (v ++ 0x22 :: (k ++ 0x22 :: (w ++ 0x3A :: s))) =
        readMembers n d ((bodyText ps, x) :: acc) r) := by
  have hskip : skipBlanks (w ++ 0x3A :: s) = 0x3A :: s := skipBlanks_blanks_cons hw rfl _
  constructor <;> intro r hr <;>
  · rw [readMembers, skipBlanks_append hv, skipBlanks_cons rfl]
    simp only [readString_append hk, hskip, hread, hr]

mutual

theorem readValue_of_isValue {t : Text} {x : Json Literal} (h : IsValue t x) {n d : Nat}
    {rest : Text} (hdepth : x.depth ≤ d) (hn : 2 * t.length ≤ n) (hrest : Closes rest) :
    readValue n d (t ++ rest) = .ok (x, rest) := by
  obtain ⟨b, s, ht, -⟩ := h.head
  obtain ⟨n, rfl⟩ : ∃ m, n = m + 1 :=
    Nat.exists_eq_add_one.mpr (by rw [ht, List.length_cons] at hn; omega)
  cases h with
  | nullWord => exact readValue_word rest n d (by simp)
  | trueWord => exact readValue_word rest n d (by simp)
  | falseWord => exact readValue_word rest n d (by simp)
  | number hl => exact readValue_number hl hrest n d
  | string hs => exact readValue_string hs rest n d
  | noElements hw =>
      obtain ⟨d, rfl⟩ := Nat.exists_eq_add_of_le' hdepth
      exact readValue_noElements hw rest n d
  | noMembers hw =>
      obtain ⟨d, rfl⟩ := Nat.exists_eq_add_of_le' hdepth
      exact readValue_noMembers hw rest n d
  | array hs =>
      obtain ⟨d, rfl⟩ := Nat.exists_eq_add_of_le' (Nat.le_trans (Nat.le_add_left 1 _) hdepth)
      simp only [List.length_cons, List.length_append, List.length_nil] at hn
      exact readValue_array hs
        (readElements_of_isElements hs (Nat.le_of_succ_le_succ hdepth) (by omega))
  | object hs =>
      obtain ⟨d, rfl⟩ := Nat.exists_eq_add_of_le' (Nat.le_trans (Nat.le_add_left 1 _) hdepth)
      simp only [List.length_cons, List.length_append, List.length_nil] at hn
      exact readValue_object hs
        (readMembers_of_isMembers hs (Nat.le_of_succ_le_succ hdepth) (by omega))
termination_by (n, 0)

theorem readValue_of_isDocument {s : Text} {x : Json Literal} (h : IsDocument s x) {n d : Nat}
    {rest : Text} (hdepth : x.depth ≤ d) (hn : 2 * s.length ≤ n) (hrest : Closes rest) :
    ∃ w, Blanks w ∧ readValue n d (s ++ rest) = .ok (x, w ++ rest) := by
  cases h with
  | mk hv hs hw =>
      rename_i w
      simp only [List.length_append] at hn
      refine ⟨w, hw, ?_⟩
      rw [List.append_assoc, readValue_blanks hv, List.append_assoc]
      exact readValue_of_isValue hs hdepth (by omega) (hrest.append hw)
termination_by (n, 1)

theorem readElements_of_isElements {s : Text} {xs : List (Json Literal)} (h : IsElements s xs)
    {n d : Nat} {acc : List (Json Literal)} {rest : Text} (hdepth : elementsDepth xs ≤ d)
    (hn : 2 * s.length + 1 ≤ n) :
    readElements n d acc (s ++ 0x5D :: rest) = .ok (acc.reverse ++ xs, rest) := by
  obtain ⟨n, rfl⟩ : ∃ m, n = m + 1 := Nat.exists_eq_add_one.mpr (by omega)
  cases h with
  | last h =>
      rw [elementsDepth, elementsDepth] at hdepth
      obtain ⟨w, hw, hread⟩ := readValue_of_isDocument h (le_of_max_le_left hdepth)
        (Nat.le_of_succ_le_succ hn) (closes_cons (b := 0x5D) (by decide) rest)
      rw [readElements_last hread hw, List.reverse_cons]
  | cons h ht =>
      rename_i s t x xs
      rw [elementsDepth] at hdepth
      simp only [List.length_append, List.length_cons] at hn
      obtain ⟨w, hw, hread⟩ := readValue_of_isDocument h (n := n) (le_of_max_le_left hdepth) (by omega)
        (closes_cons (b := 0x2C) (by decide) (t ++ 0x5D :: rest))
      rw [List.append_assoc, List.cons_append, readElements_cons hread hw,
        readElements_of_isElements ht (le_of_max_le_right hdepth) (by omega)]
      simp
termination_by (n, 0)

theorem readMembers_of_isMembers {s : Text} {ms : List (Text × Json Literal)} (h : IsMembers s ms)
    {n d : Nat} {acc : List (Text × Json Literal)} {rest : Text} (hdepth : membersDepth ms ≤ d)
    (hn : 2 * s.length + 1 ≤ n) :
    readMembers n d acc (s ++ 0x7D :: rest) = .ok (acc.reverse ++ ms, rest) := by
  obtain ⟨n, rfl⟩ : ∃ m, n = m + 1 := Nat.exists_eq_add_one.mpr (by omega)
  cases h with
  | last h =>
      cases h with
      | mk hv hk hu hs =>
          rw [membersDepth, membersDepth] at hdepth
          simp only [List.length_append, List.length_cons] at hn
          obtain ⟨w, hw, hread⟩ := readValue_of_isDocument hs (n := n) (le_of_max_le_left hdepth)
            (by omega) (closes_cons (b := 0x7D) (by decide) rest)
          have hlast := (readMembers_key hv hk hu acc hread).1 rest (skipBlanks_blanks_cons hw rfl _)
          simp only [List.append_assoc, List.cons_append]
          rw [hlast, List.reverse_cons]
  | cons h ht =>
      rename_i t m ms
      cases h with
      | mk hv hk hu hs =>
          rw [membersDepth] at hdepth
          simp only [List.length_append, List.length_cons] at hn
          obtain ⟨w, hw, hread⟩ := readValue_of_isDocument hs (n := n) (le_of_max_le_left hdepth)
            (by omega) (closes_cons (b := 0x2C) (by decide) (t ++ 0x7D :: rest))
          have hcons := (readMembers_key hv hk hu acc hread).2 _ (skipBlanks_blanks_cons hw rfl _)
          simp only [List.append_assoc, List.cons_append]
          rw [hcons, readMembers_of_isMembers ht (le_of_max_le_right hdepth) (by omega)]
          simp
termination_by (n, 0)

end

/-- A text denotes one document at most. -/
theorem IsDocument.unique {s : Text} {x y : Json Literal} (hx : IsDocument s x)
    (hy : IsDocument s y) : x = y := by
  obtain ⟨v, -, hv⟩ := readValue_of_isDocument hx (le_max_left x.depth y.depth) le_rfl closes_nil
  obtain ⟨w, -, hw⟩ := readValue_of_isDocument hy (le_max_right x.depth y.depth) le_rfl closes_nil
  rw [hv] at hw
  exact (Prod.mk.inj (Except.ok.inj hw)).1

/-- A text is read exactly if it is a document that is not nested too deep. -/
theorem read_ok_iff {s : Text} {x : Json Literal} :
    read s = .ok x ↔ IsDocument s x ∧ x.depth ≤ maxDepth := by
  constructor
  · intro h
    unfold read at h
    split at h
    · cases h
    · rename_i y rest hread
      obtain ⟨v, t, rfl, hv, ht, hdepth⟩ := readValue_ok hread
      obtain ⟨w, hrest, hw⟩ := exists_skipBlanks rest
      split at h
      · rename_i hskip
        cases h
        rw [hskip, List.append_nil] at hrest
        exact ⟨.mk hv ht (hrest ▸ hw), hdepth⟩
      · cases h
  · rintro ⟨h, hdepth⟩
    have hn : 2 * s.length ≤ stepBound s := Nat.le_add_right _ 2
    obtain ⟨w, hw, hread⟩ := readValue_of_isDocument h hdepth hn closes_nil
    rw [List.append_nil, List.append_nil] at hread
    have hskip : skipBlanks w = [] := by
      have h := skipBlanks_append hw []
      rwa [List.append_nil] at h
    unfold read
    rw [hread]
    simp only [hskip]

end ServiceKit.Json
