import Mathlib
import ServiceKit.Proofs.Json.Outcomes
import ServiceKit.Proofs.Number.Written

/-!
Which texts are decoded into integers: the literals with neither a point nor an exponent, as long as their
value is in range. What is printed for an integer is such a literal.
-/

namespace ServiceKit

namespace Number

/-! ### Integers as they are written -/

/-- The value of decimal digits by their places, of which the last one counts ones. -/
def placeValue (t : Text) : Nat := Nat.ofDigits 10 (t.reverse.map fun b => b.toNat - 0x30)

theorem ofDigits_eq (t : Text) : ofDigits t = placeValue t := by
  induction t with
  | nil => rfl
  | cons b t ih =>
      rw [ofDigits_cons, ih, placeValue, placeValue, List.reverse_cons, List.map_append,
        Nat.ofDigits_append, List.length_map, List.length_reverse, List.map_singleton,
        Nat.ofDigits_singleton]
      ring

theorem toNat_digit {d : Nat} (h : d < 10) : (digit d).toNat - 0x30 = d := by
  revert d
  decide

theorem ofDigits_digitsUpTo {fuel n : Nat} (h : n ≤ fuel) : ofDigits (digitsUpTo 10 fuel n) = n := by
  have hone {d : Nat} (hd : d < 10) : ofDigits [digit d] = d := by
    rw [ofDigits_cons, toNat_digit hd]
    simp [ofDigits]
  induction fuel generalizing n with
  | zero =>
      obtain rfl := Nat.le_zero.mp h
      rfl
  | succ fuel ih =>
      rw [digitsUpTo]
      split
      · rename_i hn
        exact hone hn
      · rw [ofDigits_append, ih (by omega), hone (Nat.mod_lt n (by decide)), List.length_singleton,
          pow_one]
        omega

theorem placeValue_decimal (n : Nat) : placeValue (decimal n) = n := by
  rw [← ofDigits_eq]
  exact ofDigits_digitsUpTo (Nat.le_refl n)

/-- A text that is an integer: digits, of which a zero in front stands alone, and maybe a sign before
them. -/
inductive IsInteger : Text → Int → Prop
  | natural {t : Text} : IsWhole t → IsInteger t (placeValue t)
  | negative {t : Text} : IsWhole t → IsInteger (0x2D :: t) (-(placeValue t))

theorem isInteger_integer (i : Int) : IsInteger (integer i) i := by
  cases i with
  | ofNat n =>
      have h := IsInteger.natural (isWhole_decimal n)
      rwa [placeValue_decimal] at h
  | negSucc n =>
      have h := IsInteger.negative (isWhole_decimal (n + 1))
      rwa [placeValue_decimal] at h

theorem fitsInt64_iff {i : Int} : fitsInt64 i = true ↔ -2 ^ 63 ≤ i ∧ i < 2 ^ 63 := by
  rw [fitsInt64, Bool.and_eq_true, decide_eq_true_eq, decide_eq_true_eq]
  rfl

end Number

namespace Json

open Number (IsInteger IsWhole placeValue)

/-! ### Literals of integers -/

namespace Literal

/-- A literal of nothing but digits, and of a sign if it is negative. -/
def ofWhole (negative : Bool) (t : Text) : Literal := ⟨negative, t, none, none⟩

theorem text_ofWhole (negative : Bool) (t : Text) :
    (ofWhole negative t).text = if negative then 0x2D :: t else t := by
  cases negative <;> simp [text, ofWhole]

theorem wellFormed_ofWhole {negative : Bool} {t : Text} :
    (ofWhole negative t).WellFormed ↔ IsWhole t := by
  constructor
  · intro h
    exact ⟨h.whole, h.zero_alone⟩
  · intro h
    refine ⟨h.digits, h.zero_alone, ?_, ?_⟩
    · intro ds hds
      cases hds
    · intro mark ds hds
      cases hds

theorem toInt?_eq_some_iff {l : Literal} {i : Int} :
    l.toInt? = some i ↔
      ∃ negative t, l = ofWhole negative t ∧
        i = if negative then -(placeValue t : Int) else placeValue t := by
  constructor
  · intro h
    obtain ⟨negative, t, _ | places, _ | exponent⟩ := l
    · refine ⟨negative, t, rfl, ?_⟩
      rw [← Number.ofDigits_eq]
      exact (Option.some.inj h).symm
    all_goals cases h
  · rintro ⟨negative, t, rfl, rfl⟩
    rw [← Number.ofDigits_eq]
    rfl

end Literal

/-- The integers are the literals whose value is one. -/
theorem isInteger_iff {t : Text} {i : Int} :
    IsInteger t i ↔ ∃ l : Literal, l.WellFormed ∧ l.text = t ∧ l.toInt? = some i := by
  constructor
  · intro h
    cases h with
    | natural ht =>
        refine ⟨.ofWhole false t, Literal.wellFormed_ofWhole.mpr ht, Literal.text_ofWhole _ _, ?_⟩
        exact Literal.toInt?_eq_some_iff.mpr ⟨false, t, rfl, rfl⟩
    | negative ht =>
        refine ⟨.ofWhole true _, Literal.wellFormed_ofWhole.mpr ht, Literal.text_ofWhole _ _, ?_⟩
        exact Literal.toInt?_eq_some_iff.mpr ⟨true, _, rfl, rfl⟩
  · rintro ⟨l, hl, rfl, hvalue⟩
    obtain ⟨negative, t, rfl, rfl⟩ := Literal.toInt?_eq_some_iff.mp hvalue
    have ht := Literal.wellFormed_ofWhole.mp hl
    rw [Literal.text_ofWhole]
    cases negative with
    | false => exact .natural ht
    | true => exact .negative ht

/-- The whole numbers without a sign are the literals without one. -/
theorem isWhole_iff {t : Text} {n : Nat} :
    IsWhole t ∧ placeValue t = n ↔
      ∃ l : Literal, l.WellFormed ∧ l.text = t ∧ l.negative = false ∧ l.toInt? = some (n : Int) := by
  constructor
  · rintro ⟨ht, rfl⟩
    refine ⟨.ofWhole false t, Literal.wellFormed_ofWhole.mpr ht, Literal.text_ofWhole _ _, rfl, ?_⟩
    exact Literal.toInt?_eq_some_iff.mpr ⟨false, t, rfl, rfl⟩
  · rintro ⟨l, hl, rfl, hsign, hvalue⟩
    obtain ⟨negative, t, rfl, hn⟩ := Literal.toInt?_eq_some_iff.mp hvalue
    obtain rfl : negative = false := hsign
    rw [Literal.text_ofWhole]
    exact ⟨Literal.wellFormed_ofWhole.mp hl, (Int.ofNat.inj hn).symm⟩

/-! ### Texts that are decoded -/

/-- One text is the other with blanks around it. -/
def Padded (t s : Text) : Prop := ∃ v w, Blanks v ∧ Blanks w ∧ s = v ++ (t ++ w)

theorem isDocument_number_iff {s : Text} {l : Literal} :
    IsDocument s (.number l) ↔ Padded l.text s ∧ l.WellFormed := by
  constructor
  · intro h
    cases h with
    | mk hv hs hw =>
        cases hs with
        | number hl => exact ⟨⟨_, _, hv, hw, rfl⟩, hl⟩
  · rintro ⟨⟨v, w, hv, hw, rfl⟩, hl⟩
    exact .mk hv (.number hl) hw

/-- Nothing but numbers is decoded into numbers. -/
theorem decodeText_number_iff {shape : Shape} {s : Text} {v : shape.Carrier} {P : Literal → Prop}
    (h : ∀ x, x ≠ .null → (shape.decodeValue x = .ok v ↔ ∃ l, x = .number l ∧ P l)) :
    decodeText shape s = .ok (some v) ↔ ∃ l, IsDocument s (.number l) ∧ P l := by
  rw [decodeText_eq_ok_iff, shape.decode_eq_some_iff]
  constructor
  · rintro ⟨x, hread, hnull, hv⟩
    obtain ⟨l, rfl, hl⟩ := (h x hnull).mp hv
    exact ⟨l, (read_ok_iff.mp hread).1, hl⟩
  · rintro ⟨l, hs, hl⟩
    have hnull : Json.number l ≠ .null := by simp
    exact ⟨.number l, read_ok_iff.mpr ⟨hs, Nat.zero_le _⟩, hnull, (h _ hnull).mpr ⟨l, rfl, hl⟩⟩

theorem decodeText_int_iff {s : Text} {i : Int} :
    decodeText .int s = .ok (some i) ↔
      ∃ t, Padded t s ∧ IsInteger t i ∧ -2 ^ 63 ≤ i ∧ i < 2 ^ 63 := by
  have hvalue (x : Json Literal) (hnull : x ≠ .null) :
      Shape.int.decodeValue x = .ok i ↔
        ∃ l, x = .number l ∧ l.toInt? = some i ∧ Number.fitsInt64 i = true := by
    cases x with
    | null => exact absurd rfl hnull
    | number l => simp [Shape.decodeValue, decodeInt, intOf_eq_ok_iff]
    | _ => simp [Shape.decodeValue, decodeInt, wrongKind]
  rw [decodeText_number_iff hvalue]
  simp only [isDocument_number_iff, isInteger_iff, Number.fitsInt64_iff]
  constructor
  · rintro ⟨l, ⟨hs, hl⟩, hi, hrange⟩
    exact ⟨l.text, hs, ⟨l, hl, rfl, hi⟩, hrange⟩
  · rintro ⟨t, hs, ⟨l, hl, rfl, hi⟩, hrange⟩
    exact ⟨l, ⟨hs, hl⟩, hi, hrange⟩

theorem decodeText_byte_iff {s : Text} {n : Nat} :
    decodeText .byte s = .ok (some n) ↔
      ∃ t, Padded t s ∧ IsWhole t ∧ placeValue t = n ∧ n < 256 := by
  have hvalue (x : Json Literal) (_ : x ≠ .null) :
      Shape.byte.decodeValue x = .ok n ↔
        ∃ l, x = .number l ∧ l.negative = false ∧ l.toInt? = some (n : Int) ∧ n < 256 := by
    cases x with
    | number l => simp [Shape.decodeValue, byteOf_eq_ok_iff]
    | _ => simp [Shape.decodeValue, wrongKind]
  rw [decodeText_number_iff hvalue]
  simp only [isDocument_number_iff, ← and_assoc (a := IsWhole _), isWhole_iff]
  constructor
  · rintro ⟨l, ⟨hs, hl⟩, hsign, hn, hlt⟩
    exact ⟨l.text, hs, ⟨l, hl, rfl, hsign, hn⟩, hlt⟩
  · rintro ⟨t, hs, ⟨l, hl, rfl, hsign, hn⟩, hlt⟩
    exact ⟨l, ⟨hs, hl⟩, hsign, hn, hlt⟩

/-! ### Integers that are printed -/

theorem padded_line (t : Text) : Padded t (t ++ [0x0A]) :=
  ⟨[], [0x0A], blanks_nil, List.forall_mem_singleton.mpr (.inr (.inr (.inl rfl))), rfl⟩

theorem writeLine_int (i : Int) : Shape.writeLine .int i = Number.integer i ++ [0x0A] := by
  simp [Shape.writeLine, Shape.writeLine.line, write, writeBefore, Number.Numeral.jsonText]

theorem writeLine_byte (n : Nat) : Shape.writeLine .byte n = Number.decimal n ++ [0x0A] :=
  writeLine_int n

theorem decodeText_writeLine_int {i : Int} (h : -2 ^ 63 ≤ i ∧ i < 2 ^ 63) :
    decodeText .int (Shape.writeLine .int i) = .ok (some i) := by
  rw [writeLine_int, decodeText_int_iff]
  exact ⟨_, padded_line _, Number.isInteger_integer i, h⟩

theorem decodeText_writeLine_byte {n : Nat} (h : n < 256) :
    decodeText .byte (Shape.writeLine .byte n) = .ok (some n) := by
  rw [writeLine_byte, decodeText_byte_iff]
  exact ⟨_, padded_line _, Number.isWhole_decimal n, Number.placeValue_decimal n, h⟩

/-- Integers are decoded exactly up to both ends of their range, from literals without a point and an
exponent and from nothing else; bytes are so from literals without a sign, below 256. What is printed for
a decoded integer is decoded as the same one. -/
theorem decodeText_integers (s : Text) :
    (∀ i : Int, decodeText .int s = .ok (some i) ↔
        ∃ t, Padded t s ∧ IsInteger t i ∧ -2 ^ 63 ≤ i ∧ i < 2 ^ 63) ∧
      (∀ n : Nat, decodeText .byte s = .ok (some n) ↔
        ∃ t, Padded t s ∧ IsWhole t ∧ placeValue t = n ∧ n < 256) ∧
      (∀ i : Int, decodeText .int s = .ok (some i) →
        decodeText .int (Shape.writeLine .int i) = .ok (some i)) ∧
      ∀ n : Nat, decodeText .byte s = .ok (some n) →
        decodeText .byte (Shape.writeLine .byte n) = .ok (some n) := by
  refine ⟨fun i => decodeText_int_iff, fun n => decodeText_byte_iff, fun i h => ?_, fun n h => ?_⟩
  · obtain ⟨t, -, -, hrange⟩ := decodeText_int_iff.mp h
    exact decodeText_writeLine_int hrange
  · obtain ⟨t, -, -, -, hlt⟩ := decodeText_byte_iff.mp h
    exact decodeText_writeLine_byte hlt

example : parseText .int (utf8 " -9223372036854775808\n") = some (-2 ^ 63) := by decide +kernel

example : parseText .int (utf8 "9223372036854775808") = none := by decide +kernel

end Json

end ServiceKit
