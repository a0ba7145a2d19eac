import Mathlib
import ServiceKit.Json.Parse
import ServiceKit.Proofs.Json.Reading
import ServiceKit.Proofs.Number.Range

/-!
Which texts are decoded into a value of any kind: the documents that are not nested too deep and whose
numbers are not too large. All other texts are refused with one kind of error.
-/

namespace ServiceKit.Json

open Number (ofDigits significant)

/-! ### Numbers of a document -/

section Numbers

variable {ν μ ε : Type} {f : ν → Except ε μ}

theorem exists_bind_ok_iff {α β : Type} {r : Except ε α} {g : α → Except ε β} :
    (∃ y, (r >>= g) = .ok y) ↔ ∃ a, r = .ok a ∧ ∃ y, g a = .ok y := by
  cases r with
  | error e => simp [bind, Except.bind]
  | ok a => simp [bind, Except.bind]

mutual

/-- The numbers of a value can be changed exactly if each of them can. -/
theorem mapNumbers_ok_iff (x : Json ν) :
    (∃ y, mapNumbers f x = .ok y) ↔ ∀ n ∈ numbers x, ∃ m, f n = .ok m := by
  cases x with
  | null => simp [mapNumbers, numbers]
  | bool b => simp [mapNumbers, numbers]
  | number n => simp [mapNumbers, numbers, exists_bind_ok_iff]
  | string s => simp [mapNumbers, numbers]
  | array xs => simpa [mapNumbers, numbers, exists_bind_ok_iff] using mapElements_ok_iff xs
  | object ms => simpa [mapNumbers, numbers, exists_bind_ok_iff] using mapMembers_ok_iff ms

theorem mapElements_ok_iff (xs : List (Json ν)) :
    (∃ ys, mapElements f xs = .ok ys) ↔ ∀ n ∈ elementsNumbers xs, ∃ m, f n = .ok m := by
  cases xs with
  | nil => simp [mapElements, elementsNumbers]
  | cons x xs =>
      rw [mapElements, elementsNumbers, List.forall_mem_append, ← mapNumbers_ok_iff x,
        ← mapElements_ok_iff xs]
      simp [exists_bind_ok_iff]

theorem mapMembers_ok_iff (ms : List (Text × Json ν)) :
    (∃ ys, mapMembers f ms = .ok ys) ↔ ∀ n ∈ membersNumbers ms, ∃ m, f n = .ok m := by
  cases ms with
  | nil => simp [mapMembers, membersNumbers]
  | cons e ms =>
      obtain ⟨k, x⟩ := e
      rw [mapMembers, membersNumbers, List.forall_mem_append, ← mapNumbers_ok_iff x,
        ← mapMembers_ok_iff ms]
      simp [exists_bind_ok_iff]

end

end Numbers

/-! ### How large a literal is -/

namespace Literal

/-- The exponent as it is written. -/
def writtenExponent (l : Literal) : Int :=
  match l.exponent with
  | none => 0
  | some (mark, ds) => if mark.contains 0x2D then -(ofDigits ds : Int) else ofDigits ds

/-- The number that a literal stands for, without its sign. -/
def magnitude (l : Literal) : ℚ :=
  ofDigits (l.whole ++ l.places) * 10 ^ (l.writtenExponent - l.places.length)

/-- A literal with no more than the first five significant digits of its exponent. -/
def cut (l : Literal) : Literal :=
  { l with exponent := l.exponent.map fun e => (e.1, (significant e.2).take 5) }

theorem writtenExponent_cut (l : Literal) : l.cut.writtenExponent = l.exponentValue := by
  unfold writtenExponent cut exponentValue
  rcases l.exponent with _ | ⟨mark, ds⟩ <;> rfl

/-- What decides whether a literal is too large is its magnitude with the exponent cut. -/
theorem toBinary64?_ne_none_iff (l : Literal) :
    l.toBinary64? ≠ none ↔ l.cut.magnitude < Number.Binary64.bound := by
  rw [← not_le, toBinary64?, Number.Binary64.ofNumeral?, Ne, Number.Binary64.ofDecimal?_eq_none_iff,
    Number.Decimal.magnitude, magnitude, writtenExponent_cut]
  rfl

/-- A literal whose exponent is not cut is as large as it is written. -/
theorem magnitude_cut {l : Literal}
    (hexponent : ∀ mark ds, l.exponent = some (mark, ds) → (significant ds).length ≤ 5) :
    l.cut.magnitude = l.magnitude := by
  have hcut : l.cut.writtenExponent = l.writtenExponent := by
    unfold writtenExponent cut
    rcases he : l.exponent with _ | ⟨mark, ds⟩
    · rfl
    · simp only [Option.map_some, List.take_of_length_le (hexponent mark ds he),
        Number.ofDigits_significant]
  rw [magnitude, hcut, magnitude]
  rfl

/-- An exponent that is cut is not greater than the whole one, or far below zero. -/
theorem exponentValue_le {l : Literal} (hl : l.WellFormed) :
    l.exponentValue ≤ l.writtenExponent ∨ l.exponentValue ≤ -10000 := by
  unfold exponentValue writtenExponent
  rcases he : l.exponent with _ | ⟨mark, ds⟩
  · exact .inl (Int.le_refl _)
  · obtain ⟨-, -, hdigits⟩ := hl.exponent mark ds he
    have hcut : Number.ofExponentDigits ds ≤ ofDigits ds := by
      rw [← Number.ofDigits_significant ds]
      exact Number.ofDigits_take_le _ _
    simp only
    split
    · by_cases hlong : 4 < (significant ds).length
      · have hlarge : 10 ^ 4 ≤ Number.ofExponentDigits ds := Number.pow_le_ofDigits_take hdigits hlong
        exact .inr (by omega)
      · have hsame : Number.ofExponentDigits ds = ofDigits ds := by
          rw [Number.ofExponentDigits, List.take_of_length_le (by omega), Number.ofDigits_significant]
        rw [hsame]
        exact .inl (Int.le_refl _)
    · exact .inl (by exact_mod_cast hcut)

theorem isDigit_of_mem_places {l : Literal} (hl : l.WellFormed) :
    ∀ b ∈ l.places, Text.isDigit b = true := by
  unfold places
  rcases hf : l.fraction with _ | ds
  · exact fun b hb => nomatch hb
  · exact (hl.fraction ds hf).2

theorem ofDigits_lt {l : Literal} (hl : l.WellFormed) :
    ofDigits (l.whole ++ l.places) < 10 ^ (l.whole.length + l.places.length) := by
  rw [← List.length_append]
  refine Number.ofDigits_lt fun b hb => ?_
  rcases List.mem_append.mp hb with hb | hb
  · exact hl.whole.2 b hb
  · exact isDigit_of_mem_places hl b hb

/-- Cutting the exponent does not make a literal too large, unless more digits stand before the point
than the exponent can take back. -/
theorem magnitude_cut_lt {l : Literal} (hl : l.WellFormed) (hwhole : l.whole.length ≤ 10000)
    (h : l.magnitude < Number.Binary64.bound) : l.cut.magnitude < Number.Binary64.bound := by
  have hone : (1 : ℚ) ≤ 10 := by norm_num
  have hcut : l.cut.magnitude =
      ofDigits (l.whole ++ l.places) * 10 ^ (l.exponentValue - l.places.length) := by
    rw [magnitude, writtenExponent_cut]
    rfl
  rw [hcut]
  rcases exponentValue_le hl with he | he
  · refine lt_of_le_of_lt ?_ h
    exact mul_le_mul_of_nonneg_left (zpow_le_zpow_right₀ hone (by omega)) (Nat.cast_nonneg _)
  · have hdigits : (ofDigits (l.whole ++ l.places) : ℚ) <
        10 ^ ((l.whole.length : Int) + l.places.length) := by
      exact_mod_cast ofDigits_lt hl
    have hsum : (l.whole.length : Int) + l.places.length + (l.exponentValue - l.places.length) =
        l.whole.length + l.exponentValue := by omega
    calc (ofDigits (l.whole ++ l.places) : ℚ) * 10 ^ (l.exponentValue - l.places.length)
        < 10 ^ ((l.whole.length : Int) + l.places.length) *
            10 ^ (l.exponentValue - l.places.length) := by gcongr
      _ = 10 ^ ((l.whole.length : Int) + l.exponentValue) := by
          rw [← zpow_add₀ (by norm_num), hsum]
      _ ≤ 10 ^ (0 : Int) := zpow_le_zpow_right₀ hone (by omega)
      _ < Number.Binary64.bound := by simpa using Number.Binary64.one_lt_bound

end Literal

/-! ### Decoding -/

theorem floatOf_ok_iff (l : Literal) :
    (∃ x, floatOf l = .ok x) ↔ l.cut.magnitude < Number.Binary64.bound := by
  rw [← Literal.toBinary64?_ne_none_iff, floatOf]
  cases l.toBinary64? <;> simp

theorem decodeAny_ok_iff (x : Json Literal) :
    (∃ y, decodeAny x = .ok y) ↔ ∀ l ∈ x.numbers, l.cut.magnitude < Number.Binary64.bound := by
  simp only [← floatOf_ok_iff, ← mapNumbers_ok_iff, decodeAny]
  simp [exists_bind_ok_iff]

theorem decodeText_eq_ok_iff {shape : Shape} {s : Text} {v : Option shape.Carrier} :
    decodeText shape s = .ok v ↔ shape.decode s = .ok v := by
  unfold decodeText
  cases shape.decode s <;> simp [Except.mapError]

/-- Those who want no error get the value, if there is one. -/
theorem parseText_eq (shape : Shape) (s : Text) :
    parseText shape s = (decodeText shape s).toOption.join := by
  unfold parseText
  cases decodeText shape s <;> rfl

theorem parseText_eq_some_iff {shape : Shape} {s : Text} {v : shape.Carrier} :
    parseText shape s = some v ↔ decodeText shape s = .ok (some v) := by
  rw [parseText_eq]
  cases decodeText shape s <;> simp [Except.toOption]

theorem Shape.decode_eq (shape : Shape) {s : Text} {x : Json Literal} (hread : read s = .ok x)
    (hnull : x ≠ .null) : shape.decode s = ((shape.decodeValue x).map some).mapError .mismatch := by
  unfold Shape.decode
  rw [hread]
  split
  · rename_i h
    cases h
  · rename_i h
    exact absurd (Except.ok.inj h) hnull
  · rename_i h
    obtain rfl := Except.ok.inj h
    cases shape.decodeValue x <;> rfl

theorem Shape.decode_eq_none_iff (shape : Shape) (s : Text) :
    shape.decode s = .ok none ↔ read s = .ok .null := by
  cases hread : read s with
  | error e => simp [Shape.decode, hread]
  | ok x =>
      by_cases hnull : x = .null
      · subst hnull
        simp [Shape.decode, hread]
      · rw [shape.decode_eq hread hnull]
        cases shape.decodeValue x <;> simp [Except.map, Except.mapError, hnull]

theorem Shape.decode_eq_some_iff (shape : Shape) (s : Text) (v : shape.Carrier) :
    shape.decode s = .ok (some v) ↔
      ∃ x, read s = .ok x ∧ x ≠ .null ∧ shape.decodeValue x = .ok v := by
  cases hread : read s with
  | error e => simp [Shape.decode, hread]
  | ok x =>
      by_cases hnull : x = .null
      · subst hnull
        simp [Shape.decode, hread]
      · rw [shape.decode_eq hread hnull]
        cases hvalue : shape.decodeValue x <;> simp [Except.map, Except.mapError, hnull, hvalue]

theorem decode_any_of_read {s : Text} {x : Json Literal} (h : read s = .ok x) :
    (∃ v, Shape.decode .any s = .ok v) ↔ ∃ y, decodeAny x = .ok y := by
  by_cases hnull : x = .null
  · subst hnull
    exact iff_of_true ⟨none, (Shape.decode_eq_none_iff .any s).mpr h⟩ ⟨.null, rfl⟩
  · rw [Shape.decode_eq .any h hnull]
    change (∃ v, ((decodeAny x).map some).mapError DecodeError.mismatch = .ok v) ↔ _
    cases decodeAny x <;> simp [Except.map, Except.mapError]

/-- A text is decoded exactly if it is a document that is not nested too deep, in which no number is
too large. -/
theorem decodeText_any_ok_iff (s : Text) :
    (∃ v, decodeText .any s = .ok v) ↔
      ∃ x, IsDocument s x ∧ x.depth ≤ maxDepth ∧
        ∀ l ∈ x.numbers, l.cut.magnitude < Number.Binary64.bound := by
  have hdecode : (∃ v, decodeText .any s = .ok v) ↔ ∃ v, Shape.decode .any s = .ok v :=
    exists_congr fun v => decodeText_eq_ok_iff
  rw [hdecode]
  constructor
  · intro h
    cases hread : read s with
    | error e =>
        obtain ⟨v, hv⟩ := h
        simp [Shape.decode, hread] at hv
    | ok x =>
        obtain ⟨hx, hdepth⟩ := read_ok_iff.mp hread
        exact ⟨x, hx, hdepth, (decodeAny_ok_iff x).mp ((decode_any_of_read hread).mp h)⟩
  · rintro ⟨x, hx, hdepth, hnumbers⟩
    exact (decode_any_of_read (read_ok_iff.mpr ⟨hx, hdepth⟩)).mpr ((decodeAny_ok_iff x).mpr hnumbers)

/-- Whatever a text is refused for, the error is about its format and has a cause. -/
theorem decodeText_error {shape : Shape} {s : Text} {f : Failure}
    (h : decodeText shape s = .error f) :
    f.code = Fault.invalidFormatCode ∧ f.cause.isSome = true ∧ parseText shape s = none := by
  refine ⟨?_, ?_, by rw [parseText, h]⟩ <;>
  · unfold decodeText at h
    cases hdecode : shape.decode s with
    | ok v =>
        rw [hdecode] at h
        cases h
    | error e =>
        rw [hdecode] at h
        cases h
        rfl

/-- A text is decoded exactly if it is a document, of which it then denotes one only, that is not nested
too deep and none of whose numbers counts as 2^1024 - 2^970 or more. A number counts as it is written
unless its exponent has more than five significant digits, and a number below that bound as it is written
counts as less too, unless it has more than 10000 digits before the point. Every other text is refused
with an error about its format that has a cause. -/
theorem decodeText_any_accepts (s : Text) :
    ((∃ v, decodeText .any s = .ok v) ↔ ∃ x, IsDocument s x ∧ x.depth ≤ 10000 ∧
        ∀ l ∈ x.numbers, l.cut.magnitude < 2 ^ 1024 - 2 ^ 970) ∧
      (∀ x y, IsDocument s x → IsDocument s y → x = y) ∧
      (∀ x, IsDocument s x → ∀ l ∈ x.numbers,
        (l.whole.length ≤ 10000 → l.magnitude < 2 ^ 1024 - 2 ^ 970 →
          l.cut.magnitude < 2 ^ 1024 - 2 ^ 970) ∧
        ((∀ mark ds, l.exponent = some (mark, ds) → (significant ds).length ≤ 5) →
          l.cut.magnitude = l.magnitude)) ∧
      ∀ f, decodeText .any s = .error f →
        f.code = Fault.invalidFormatCode ∧ f.cause.isSome = true ∧ parseText .any s = none := by
  refine ⟨decodeText_any_ok_iff s, fun x y => IsDocument.unique, fun x hx l hl => ⟨?_, ?_⟩,
    fun f hf => decodeText_error hf⟩
  · exact Literal.magnitude_cut_lt (hx.wellFormed hl)
  · exact Literal.magnitude_cut

/-! ### Literals at the edge -/

theorem ten_pow_mul {a : Nat} {b c : Int} (h : a + b = c) : ((10 ^ a : Nat) : ℚ) * 10 ^ b = 10 ^ c := by
  rw [← h, zpow_add₀ (by norm_num), Nat.cast_pow, zpow_natCast]
  rfl

/-- A power of ten that is just not too large. -/
def greatLiteral : Literal := ⟨false, [0x31], none, some ([0x65], [0x33, 0x30, 0x38])⟩

theorem wellFormed_greatLiteral : greatLiteral.WellFormed where
  whole := ⟨List.cons_ne_nil _ _, by decide +kernel⟩
  zero_alone h := nomatch h
  fraction _ h := nomatch h
  exponent mark ds h := by
    obtain ⟨rfl, rfl⟩ := Prod.mk.inj (Option.some.inj h)
    exact ⟨by decide +kernel, List.cons_ne_nil _ _, by decide +kernel⟩

theorem magnitude_greatLiteral : greatLiteral.magnitude = 10 ^ (308 : Int) :=
  ten_pow_mul (a := 0) (by decide)

theorem decodeText_any_accepts_great :
    (∃ v, decodeText .any greatLiteral.text = .ok v) ∧
      (∀ x, IsDocument greatLiteral.text x → x = .number greatLiteral) ∧
      greatLiteral.cut.magnitude = greatLiteral.magnitude ∧
      ∃ f, decodeText .any (utf8 "[1,]") = .error f ∧ f.code = Fault.invalidFormatCode ∧
        f.cause.isSome = true ∧ parseText .any (utf8 "[1,]") = none := by
  have hdocument := (IsValue.number wellFormed_greatLiteral).isDocument
  obtain ⟨hiff, hunique, hnumbers, -⟩ := decodeText_any_accepts greatLiteral.text
  obtain ⟨hcounted, hsame⟩ := hnumbers _ hdocument greatLiteral (List.mem_singleton.mpr rfl)
  have hlt : greatLiteral.magnitude < Number.Binary64.bound := by
    rw [magnitude_greatLiteral]
    exact Number.Binary64.lt_bound
  refine ⟨hiff.mpr ⟨_, hdocument, Nat.zero_le _, fun l hl => ?_⟩,
    fun x hx => hunique x _ hx hdocument, hsame ?_, ?_⟩
  · obtain rfl := List.mem_singleton.mp hl
    exact hcounted (by decide) hlt
  · intro mark ds h
    obtain ⟨rfl, rfl⟩ := Prod.mk.inj (Option.some.inj h)
    decide +kernel
  · have herror : (decodeText .any (utf8 "[1,]")).isOk = false := by decide +kernel
    cases hf : decodeText .any (utf8 "[1,]") with
    | ok v =>
        rw [hf] at herror
        cases herror
    | error f => exact ⟨f, rfl, (decodeText_any_accepts _).2.2.2 f hf⟩

/-- A one after `n` zeros behind the point, with the exponent 100000. -/
def longExponent (n : Nat) : Literal :=
  ⟨false, [0x30], some (List.replicate n 0x30 ++ [0x31]),
    some ([0x65], [0x31, 0x30, 0x30, 0x30, 0x30, 0x30])⟩

/-- A one with `n` zeros, with the exponent -100000. -/
def longWhole (n : Nat) : Literal :=
  ⟨false, 0x31 :: List.replicate n 0x30, none,
    some ([0x65, 0x2D], [0x31, 0x30, 0x30, 0x30, 0x30, 0x30])⟩

theorem wellFormed_longExponent (n : Nat) : (longExponent n).WellFormed where
  whole := ⟨List.cons_ne_nil _ _, fun _ hb => Number.isDigit_of_mem_zeros (n := 1) hb⟩
  zero_alone _ := rfl
  fraction ds h := by
    obtain rfl := Option.some.inj h
    refine ⟨List.append_ne_nil_of_right_ne_nil _ (List.cons_ne_nil _ _), fun b hb => ?_⟩
    rcases List.mem_append.mp hb with hb | hb
    · exact Number.isDigit_of_mem_zeros hb
    · rw [List.mem_singleton.mp hb]
      decide
  exponent mark ds h := by
    obtain ⟨rfl, rfl⟩ := Prod.mk.inj (Option.some.inj h)
    exact ⟨by decide +kernel, List.cons_ne_nil _ _, by decide +kernel⟩

theorem wellFormed_longWhole (n : Nat) : (longWhole n).WellFormed where
  whole := by
    refine ⟨List.cons_ne_nil _ _, fun b hb => ?_⟩
    rcases List.mem_cons.mp hb with rfl | hb
    · decide
    · exact Number.isDigit_of_mem_zeros hb
  zero_alone h := nomatch h
  fraction _ h := nomatch h
  exponent mark ds h := by
    obtain ⟨rfl, rfl⟩ := Prod.mk.inj (Option.some.inj h)
    exact ⟨by decide +kernel, List.cons_ne_nil _ _, by decide +kernel⟩

theorem ofDigits_longExponent (n : Nat) :
    ofDigits ((longExponent n).whole ++ (longExponent n).places) = 10 ^ 0 := by
  have hzeros : [0x30] ++ List.replicate n (0x30 : UInt8) = List.replicate (n + 1) 0x30 := rfl
  have hplaces : (longExponent n).places = List.replicate n 0x30 ++ [0x31] := rfl
  have hwhole : (longExponent n).whole = [0x30] := rfl
  rw [hwhole, hplaces, ← List.append_assoc, hzeros, Number.ofDigits_append, Number.ofDigits_zeros]
  rfl

theorem length_places_longExponent (n : Nat) : (longExponent n).places.length = n + 1 := by
  simp [longExponent, Literal.places]

theorem magnitude_longExponent (n : Nat) :
    (longExponent n).magnitude = 10 ^ (100000 - (n + 1) : Int) := by
  have hexponent : (longExponent n).writtenExponent = 100000 := rfl
  rw [Literal.magnitude, ofDigits_longExponent, length_places_longExponent, hexponent]
  exact ten_pow_mul (by simp)

theorem magnitude_cut_longExponent (n : Nat) :
    (longExponent n).cut.magnitude = 10 ^ (10000 - (n + 1) : Int) := by
  have hexponent : (longExponent n).cut.writtenExponent = 10000 := rfl
  have hdigits : ofDigits ((longExponent n).cut.whole ++ (longExponent n).cut.places) = 10 ^ 0 :=
    ofDigits_longExponent n
  have hlength : (longExponent n).cut.places.length = n + 1 := length_places_longExponent n
  rw [Literal.magnitude, hdigits, hlength, hexponent]
  exact ten_pow_mul (by simp)

theorem ofDigits_longWhole (n : Nat) :
    ofDigits ((longWhole n).whole ++ (longWhole n).places) = 10 ^ n := by
  have hplaces : (longWhole n).whole ++ (longWhole n).places = 0x31 :: List.replicate n 0x30 :=
    List.append_nil _
  rw [hplaces, Number.ofDigits_one_zeros]

theorem magnitude_longWhole (n : Nat) : (longWhole n).magnitude = 10 ^ (n - 100000 : Int) := by
  have hexponent : (longWhole n).writtenExponent - (longWhole n).places.length = -100000 := rfl
  rw [Literal.magnitude, ofDigits_longWhole, hexponent]
  exact ten_pow_mul rfl

theorem magnitude_cut_longWhole (n : Nat) : (longWhole n).cut.magnitude = 10 ^ (n - 10000 : Int) := by
  have hexponent : (longWhole n).cut.writtenExponent - (longWhole n).cut.places.length = -10000 := rfl
  have hdigits : ofDigits ((longWhole n).cut.whole ++ (longWhole n).cut.places) = 10 ^ n :=
    ofDigits_longWhole n
  rw [Literal.magnitude, hdigits, hexponent]
  exact ten_pow_mul rfl

theorem decodeText_any_number_iff {l : Literal} (hl : l.WellFormed) :
    (∃ v, decodeText .any l.text = .ok v) ↔ l.cut.magnitude < Number.Binary64.bound := by
  have hdocument := (IsValue.number hl).isDocument
  rw [decodeText_any_ok_iff]
  constructor
  · rintro ⟨x, hx, -, hnumbers⟩
    obtain rfl := hx.unique hdocument
    exact hnumbers l (List.mem_singleton.mpr rfl)
  · intro h
    exact ⟨_, hdocument, Nat.zero_le _, fun m hm => List.mem_singleton.mp hm ▸ h⟩

/-- A number beyond the bound that is decoded all the same, and a number below it that is not. -/
theorem decodeText_any_accepts_large :
    (IsDocument (longExponent 9700).text (.number (longExponent 9700)) ∧
        2 ^ 1024 - 2 ^ 970 ≤ (longExponent 9700).magnitude ∧
        ∃ v, decodeText .any (longExponent 9700).text = .ok v) ∧
      (IsDocument (longWhole 10400).text (.number (longWhole 10400)) ∧
        (longWhole 10400).magnitude < 2 ^ 1024 - 2 ^ 970 ∧
        ¬∃ v, decodeText .any (longWhole 10400).text = .ok v) := by
  have hten : (1 : ℚ) ≤ 10 := by norm_num
  have hexponent := wellFormed_longExponent 9700
  have hwhole := wellFormed_longWhole 10400
  refine ⟨⟨(IsValue.number hexponent).isDocument, ?_, (decodeText_any_number_iff hexponent).mpr ?_⟩,
    (IsValue.number hwhole).isDocument, ?_, (decodeText_any_number_iff hwhole).not.mpr (not_lt.mpr ?_)⟩
  · rw [magnitude_longExponent]
    exact Number.Binary64.bound_le.trans (zpow_le_zpow_right₀ hten (by decide))
  · rw [magnitude_cut_longExponent]
    exact (zpow_le_zpow_right₀ hten (by decide)).trans_lt Number.Binary64.lt_bound
  · rw [magnitude_longWhole]
    exact (zpow_le_zpow_right₀ hten (by decide)).trans_lt Number.Binary64.lt_bound
  · rw [magnitude_cut_longWhole]
    exact Number.Binary64.bound_le.trans (zpow_le_zpow_right₀ hten (by decide))

end ServiceKit.Json
