import Mathlib
import ServiceKit.Proofs.Json.Writing
import ServiceKit.Proofs.Number.Written

/-!
Strings without the escape character. A text spells that character if it has its byte, or its number
after a backslash. What is read from a text that does not spell it has it in no string and in no key,
and a value without it is written so that the text does not spell it.
-/

namespace ServiceKit.Json

/-- A text that does not spell the escape character. Backslashes stand as they do in strings. -/
inductive LacksEscape : Text → Prop
  | nil : LacksEscape []
  | byte {b : UInt8} {s : Text} : b ≠ 0x1B → b ≠ 0x5C → LacksEscape s → LacksEscape (b :: s)
  | letter {l b : UInt8} {s : Text} : (l, b) ∈ letterEscapes → LacksEscape s →
      LacksEscape (0x5C :: l :: s)
  | unit {h₁ h₂ h₃ h₄ : UInt8} {d₁ d₂ d₃ d₄ : Nat} {s : Text} :
      Number.hexValue? h₁ = some d₁ → Number.hexValue? h₂ = some d₂ → Number.hexValue? h₃ = some d₃ →
      Number.hexValue? h₄ = some d₄ → ((d₁ * 16 + d₂) * 16 + d₃) * 16 + d₄ ≠ 0x1B → LacksEscape s →
      LacksEscape (0x5C :: 0x75 :: h₁ :: h₂ :: h₃ :: h₄ :: s)

theorem of_mem_letterEscapes :
    ∀ e ∈ letterEscapes, e.1 ≠ 0x1B ∧ e.1 ≠ 0x75 ∧ e.2 ≠ 0x1B := by
  simp [letterEscapes]

attribute [simp] LacksEscape.nil

namespace LacksEscape

theorem append {s t : Text} (hs : LacksEscape s) (ht : LacksEscape t) : LacksEscape (s ++ t) := by
  induction hs with
  | nil => exact ht
  | byte hb hslash _ ih => exact .byte hb hslash ih
  | letter hl _ ih => exact .letter hl ih
  | unit h₁ h₂ h₃ h₄ hunit _ ih => exact .unit h₁ h₂ h₃ h₄ hunit ih

theorem not_mem {s : Text} (h : LacksEscape s) : 0x1B ∉ s := by
  have hdigit {h : UInt8} {d : Nat} (hd : Number.hexValue? h = some d) : 0x1B ≠ h := by
    rintro rfl
    cases hd
  induction h with
  | nil => exact List.not_mem_nil
  | byte hb _ _ ih =>
      rw [List.mem_cons, not_or]
      exact ⟨hb.symm, ih⟩
  | letter hl _ ih =>
      simp only [List.mem_cons, not_or]
      exact ⟨by decide, (of_mem_letterEscapes _ hl).1.symm, ih⟩
  | unit h₁ h₂ h₃ h₄ _ _ ih =>
      simp only [List.mem_cons, not_or]
      exact ⟨by decide, by decide, hdigit h₁, hdigit h₂, hdigit h₃, hdigit h₄, ih⟩

@[simp] theorem cons_iff {b : UInt8} (hb : b ≠ 0x5C) {s : Text} :
    LacksEscape (b :: s) ↔ b ≠ 0x1B ∧ LacksEscape s := by
  constructor
  · intro h
    cases h with
    | byte hesc _ hs => exact ⟨hesc, hs⟩
    | letter hl hs => exact absurd rfl hb
    | unit h₁ h₂ h₃ h₄ hunit hs => exact absurd rfl hb
  · rintro ⟨hesc, hs⟩
    exact .byte hesc hb hs

theorem letter_iff {l b : UInt8} (hl : (l, b) ∈ letterEscapes) {s : Text} :
    LacksEscape (0x5C :: l :: s) ↔ LacksEscape s := by
  constructor
  · intro h
    cases h with
    | byte hesc hslash hs => exact absurd rfl hslash
    | letter _ hs => exact hs
    | unit h₁ h₂ h₃ h₄ hunit hs => exact absurd rfl (of_mem_letterEscapes _ hl).2.1
  · exact .letter hl

theorem unit_iff {h₁ h₂ h₃ h₄ : UInt8} {d₁ d₂ d₃ d₄ : Nat} (hd₁ : Number.hexValue? h₁ = some d₁)
    (hd₂ : Number.hexValue? h₂ = some d₂) (hd₃ : Number.hexValue? h₃ = some d₃)
    (hd₄ : Number.hexValue? h₄ = some d₄) {s : Text} :
    LacksEscape (0x5C :: 0x75 :: h₁ :: h₂ :: h₃ :: h₄ :: s) ↔
      ((d₁ * 16 + d₂) * 16 + d₃) * 16 + d₄ ≠ 0x1B ∧ LacksEscape s := by
  constructor
  · intro h
    cases h with
    | byte hesc hslash hs => exact absurd rfl hslash
    | letter hl hs => exact absurd rfl (of_mem_letterEscapes _ hl).2.1
    | unit he₁ he₂ he₃ he₄ hunit hs =>
        obtain rfl := Option.some.inj (hd₁.symm.trans he₁)
        obtain rfl := Option.some.inj (hd₂.symm.trans he₂)
        obtain rfl := Option.some.inj (hd₃.symm.trans he₃)
        obtain rfl := Option.some.inj (hd₄.symm.trans he₄)
        exact ⟨hunit, hs⟩
  · rintro ⟨hunit, hs⟩
    exact .unit hd₁ hd₂ hd₃ hd₄ hunit hs

theorem append_iff {w : Text} (hw : ∀ b ∈ w, b ≠ 0x1B ∧ b ≠ 0x5C) {s : Text} :
    LacksEscape (w ++ s) ↔ LacksEscape s := by
  induction w with
  | nil => exact Iff.rfl
  | cons b w ih =>
      obtain ⟨⟨hesc, hslash⟩, hw⟩ := List.forall_mem_cons.mp hw
      rw [List.cons_append, cons_iff hslash, ih hw]
      exact and_iff_right hesc

end LacksEscape

theorem isSpelling_lacksEscape : IsSpelling LacksEscape where
  nil := .nil
  mark := by
    rintro b t ⟨hlow, -, hslash⟩ ht
    refine .byte ?_ hslash ht
    rintro rfl
    exact absurd hlow (by decide)
  append := LacksEscape.append

/-! ### Strings -/

theorem mem_encode_unitChar {u : Nat} : 0x1B ∈ String.utf8EncodeChar (unitChar u) ↔ u = 0x1B := by
  constructor
  · intro h
    have hpoint := Glyph.toNat_of_mem_encode (by decide) h
    rw [unitChar] at hpoint
    split at hpoint
    · exact absurd hpoint (by decide)
    · rw [Char.toNat_ofNat] at hpoint
      split at hpoint
      · exact hpoint
      · exact absurd hpoint (by decide)
  · rintro rfl
    decide

theorem not_mem_encode_pairChar {u v : Nat} : 0x1B ∉ String.utf8EncodeChar (pairChar u v) := by
  intro h
  have hpoint := Glyph.toNat_of_mem_encode (by decide) h
  have hbyte : (0x1B : UInt8).toNat = 0x1B := rfl
  rw [pairChar, Char.toNat_ofNat, hbyte] at hpoint
  split at hpoint <;> omega

theorem mem_joinPieces_iff (ps : List Piece) :
    0x1B ∈ joinPieces ps ↔ .byte 0x1B ∈ ps ∨ .unit 0x1B ∈ ps := by
  fun_induction joinPieces ps with
  | case1 => simp
  | case2 b ps ih => simp [ih, or_assoc]
  | case3 u v ps hpair ih =>
      -- A pair stands for a character beyond the basic plane, and neither half is the character.
      have hu : u ≠ 0x1B := by rintro rfl; cases hpair
      have hv : v ≠ 0x1B := by rintro rfl; simp [isLowSurrogate] at hpair
      simp [ih, not_mem_encode_pairChar, hu.symm, hv.symm]
  | case4 u v ps hpair ih =>
      rw [List.mem_append, mem_encode_unitChar, ih]
      simp only [List.mem_cons, reduceCtorEq, false_or, Piece.unit.injEq]
      tauto
  | case5 u ps hps ih =>
      rw [List.mem_append, mem_encode_unitChar, ih]
      simp only [List.mem_cons, reduceCtorEq, false_or, Piece.unit.injEq]
      tauto

theorem IsBody.lacksEscape_iff {s : Text} {ps : List Piece} (h : IsBody s ps) {rest : Text} :
    LacksEscape (s ++ rest) ↔ 0x1B ∉ bodyText ps ∧ LacksEscape rest := by
  rw [bodyText, Text.mem_sanitize_iff (by decide), mem_joinPieces_iff]
  induction h with
  | nil => simp
  | @byte b s ps hlow hquote hslash hs ih =>
      rw [List.cons_append, LacksEscape.cons_iff hslash, ih]
      simp only [List.mem_cons, reduceCtorEq, false_or, Piece.byte.injEq]
      tauto
  | @letter l b s ps hl hs ih =>
      have hb := (of_mem_letterEscapes _ hl).2.2.symm
      rw [List.cons_append, List.cons_append, LacksEscape.letter_iff hl, ih]
      simp only [List.mem_cons, reduceCtorEq, false_or, Piece.byte.injEq, hb]
  | unit h₁ h₂ h₃ h₄ hs ih =>
      simp only [List.cons_append]
      rw [LacksEscape.unit_iff h₁ h₂ h₃ h₄, ih]
      simp only [List.mem_cons, reduceCtorEq, false_or, Piece.unit.injEq]
      tauto

/-! ### Documents -/

theorem Blanks.of_mem {w : Text} (hw : Blanks w) : ∀ b ∈ w, b ≠ 0x1B ∧ b ≠ 0x5C := by
  intro b hb
  rcases hw b hb with rfl | rfl | rfl | rfl <;> decide

theorem Literal.WellFormed.of_mem_text {l : Literal} (hl : l.WellFormed) :
    ∀ b ∈ l.text, b ≠ 0x1B ∧ b ≠ 0x5C := by
  intro b hb
  obtain ⟨hlow, -, hslash⟩ := hl.mem_text hb
  refine ⟨?_, hslash⟩
  rintro rfl
  exact absurd hlow (by decide)

mutual

theorem IsValue.lacksEscape_iff {s rest : Text} {x : Json Literal} : IsValue s x →
    (LacksEscape (s ++ rest) ↔ (∀ t ∈ x.texts, 0x1B ∉ t) ∧ LacksEscape rest)
  | .nullWord => by rw [LacksEscape.append_iff (by decide +kernel)]; simp [texts]
  | .trueWord => by rw [LacksEscape.append_iff (by decide +kernel)]; simp [texts]
  | .falseWord => by rw [LacksEscape.append_iff (by decide +kernel)]; simp [texts]
  | .number hl => by rw [LacksEscape.append_iff hl.of_mem_text]; simp [texts]
  | .string hs => by simp [hs.lacksEscape_iff, texts]
  | .noElements hw => by simp [LacksEscape.append_iff hw.of_mem, texts, elementsTexts]
  | .array hs => by simp [hs.lacksEscape_iff, texts]
  | .noMembers hw => by simp [LacksEscape.append_iff hw.of_mem, texts, membersTexts]
  | .object hs => by simp [hs.lacksEscape_iff, texts]

theorem IsDocument.lacksEscape_iff {s rest : Text} {x : Json Literal} : IsDocument s x →
    (LacksEscape (s ++ rest) ↔ (∀ t ∈ x.texts, 0x1B ∉ t) ∧ LacksEscape rest)
  | .mk hv hs hw => by
      simp [LacksEscape.append_iff hv.of_mem, hs.lacksEscape_iff, LacksEscape.append_iff hw.of_mem]

theorem IsElements.lacksEscape_iff {s rest : Text} {xs : List (Json Literal)} : IsElements s xs →
    (LacksEscape (s ++ rest) ↔ (∀ t ∈ elementsTexts xs, 0x1B ∉ t) ∧ LacksEscape rest)
  | .last hs => by rw [hs.lacksEscape_iff, elementsTexts, elementsTexts, List.append_nil]
  | .cons hs ht => by
      simp [hs.lacksEscape_iff, ht.lacksEscape_iff, elementsTexts, or_imp, forall_and, and_assoc]

theorem IsMember.lacksEscape_iff {s rest : Text} {m : Text × Json Literal} : IsMember s m →
    (LacksEscape (s ++ rest) ↔ (∀ t ∈ m.1 :: m.2.texts, 0x1B ∉ t) ∧ LacksEscape rest)
  | .mk hv hk hw hs => by
      simp [LacksEscape.append_iff hv.of_mem, hk.lacksEscape_iff, LacksEscape.append_iff hw.of_mem,
        hs.lacksEscape_iff, and_assoc]

theorem IsMembers.lacksEscape_iff {s rest : Text} {ms : List (Text × Json Literal)} : IsMembers s ms →
    (LacksEscape (s ++ rest) ↔ (∀ t ∈ membersTexts ms, 0x1B ∉ t) ∧ LacksEscape rest)
  | .last hs => by rw [hs.lacksEscape_iff, membersTexts, membersTexts, List.append_nil]
  | .cons hs ht => by
      simp [hs.lacksEscape_iff, ht.lacksEscape_iff, membersTexts, or_imp, forall_and, and_assoc]

end

/-- What is read from a text that does not spell the character has it nowhere. -/
theorem not_mem_of_read {s : Text} {x : Json Literal} (hs : LacksEscape s) (h : read s = .ok x) :
    ∀ t ∈ x.texts, 0x1B ∉ t := by
  have hdocument := (read_ok_iff.mp h).1
  rw [← List.append_nil s] at hs
  exact (hdocument.lacksEscape_iff.mp hs).1

/-! ### What is written -/

theorem StringStyle.lacksEscape_write (style : StringStyle) {s : Text} (h : 0x1B ∉ s) :
    LacksEscape (style.write s) := by
  obtain ⟨ps, hps, htext⟩ := style.exists_isBody s
  have hbody : 0x1B ∉ bodyText ps := by
    rw [htext, Text.mem_sanitize_iff (by decide)]
    exact h
  simpa [write, hps.lacksEscape_iff] using hbody

theorem lacksEscape_jsonText (n : Number.Numeral) : LacksEscape n.jsonText := by
  by_cases hfinite : n.isFinite = true
  · obtain ⟨hl, htext⟩ := Number.Numeral.literal_spec hfinite
    rw [htext, ← List.append_nil n.literal.text]
    exact (LacksEscape.append_iff hl.of_mem_text).mpr .nil
  · cases n with
    | int i => exact absurd rfl hfinite
    | float x =>
        cases x with
        | finite negative m e => exact absurd rfl hfinite
        | infinite negative => cases negative <;> exact isSpelling_lacksEscape.ascii (by decide +kernel)
        | notANumber => exact isSpelling_lacksEscape.ascii (by decide +kernel)

theorem lacksEscape_write (style : StringStyle) {x : Json Number.Numeral}
    (h : ∀ t ∈ x.texts, 0x1B ∉ t) : LacksEscape (x.write style Number.Numeral.jsonText) :=
  isSpelling_lacksEscape.isKept.write (fun t ht => style.lacksEscape_write (h t ht))
    fun n _ => lacksEscape_jsonText n

end ServiceKit.Json
