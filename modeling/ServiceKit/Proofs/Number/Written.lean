import Mathlib
import ServiceKit.Number.Numeral
import ServiceKit.Proofs.Json.Reading
import ServiceKit.Proofs.Number.Range

/-!
Numbers that are written in a document are number literals: whole numbers by their digits, and finite
floating-point numbers by the shortest digits that read back, with a point and an exponent where the
layout wants them.
-/

namespace ServiceKit

/-- The bytes of a literal: digits, signs, the point and the marks of an exponent. -/
theorem Json.Literal.WellFormed.mem_text {l : Json.Literal} (hl : l.WellFormed) {b : UInt8}
    (hb : b ∈ l.text) : 0x20 ≤ b ∧ b < 0x7B ∧ b ≠ 0x5C := by
  have hdigits {ds : Text} (hds : Json.Digits ds) (hb : b ∈ ds) : 0x20 ≤ b ∧ b < 0x7B ∧ b ≠ 0x5C := by
    have hbounds : 0x30 ≤ b ∧ b ≤ 0x39 := by simpa [Text.isDigit] using hds.2 b hb
    refine ⟨UInt8.le_trans (by decide) hbounds.1, UInt8.lt_of_le_of_lt hbounds.2 (by decide), ?_⟩
    rintro rfl
    exact absurd hbounds.2 (by decide)
  have hmarks : ∀ mark ∈ Json.exponentMarks, ∀ b ∈ mark, 0x20 ≤ b ∧ b < 0x7B ∧ b ≠ 0x5C := by
    decide +kernel
  rw [Json.Literal.text_eq] at hb
  rcases List.mem_append.mp hb with hb | hb
  · split at hb
    · rw [List.mem_singleton.mp hb]
      decide
    · cases hb
  rcases List.mem_append.mp hb with hb | hb
  · exact hdigits hl.whole hb
  rcases List.mem_append.mp hb with hb | hb
  · cases hfraction : l.fraction with
    | none =>
        rw [hfraction] at hb
        cases hb
    | some ds =>
        rw [hfraction] at hb
        rcases List.mem_cons.mp hb with rfl | hb
        · decide
        · exact hdigits (hl.fraction ds hfraction) hb
  · cases hexponent : l.exponent with
    | none =>
        rw [hexponent] at hb
        cases hb
    | some e =>
        obtain ⟨mark, ds⟩ := e
        obtain ⟨hmark, hds⟩ := hl.exponent mark ds hexponent
        rw [hexponent] at hb
        rcases List.mem_append.mp hb with hb | hb
        · exact hmarks mark hmark b hb
        · exact hdigits hds hb

namespace Number

open Json (Digits Literal)

/-! ### Digits of a whole number -/

theorem isDigit_digit {d : Nat} (h : d < 10) : Text.isDigit (digit d) = true := by
  revert d
  decide

theorem digit_ne_zero {d : Nat} (h : d < 10) (hd : 0 < d) : digit d ≠ 0x30 := by
  revert d
  decide

theorem digits_append {s t : Text} (hs : Digits s) (ht : ∀ b ∈ t, Text.isDigit b = true) :
    Digits (s ++ t) := by
  constructor
  · intro h
    exact hs.1 (List.append_eq_nil_iff.mp h).1
  · intro b hb
    rcases List.mem_append.mp hb with hb | hb
    · exact hs.2 b hb
    · exact ht b hb

theorem digits_singleton {d : Nat} (h : d < 10) : Digits [digit d] := by
  constructor
  · intro h
    cases h
  · intro b hb
    rw [List.mem_singleton.mp hb]
    exact isDigit_digit h

theorem digits_digitsUpTo (fuel n : Nat) : Digits (digitsUpTo 10 fuel n) := by
  induction fuel generalizing n with
  | zero => exact digits_singleton (Nat.mod_lt n (by decide))
  | succ fuel ih =>
      rw [digitsUpTo]
      split
      · rename_i hn
        exact digits_singleton hn
      · exact digits_append (ih (n / 10)) (digits_singleton (Nat.mod_lt n (by decide))).2

/-- Nothing but zero starts with a zero. -/
theorem head?_digitsUpTo {fuel n : Nat} (h : n ≤ fuel) (hn : 0 < n) :
    (digitsUpTo 10 fuel n).head? ≠ some 0x30 := by
  induction fuel generalizing n with
  | zero => omega
  | succ fuel ih =>
      rw [digitsUpTo]
      split
      · rename_i hlt
        intro hhead
        exact digit_ne_zero hlt hn (Option.some.inj hhead)
      · rename_i hlt
        have hne := (digits_digitsUpTo fuel (n / 10)).1
        rw [List.head?_append_of_ne_nil _ hne]
        apply ih
        · omega
        · omega

theorem digits_decimal (n : Nat) : Digits (decimal n) := digits_digitsUpTo n n

theorem head?_decimal {n : Nat} (hn : 0 < n) : (decimal n).head? ≠ some 0x30 :=
  head?_digitsUpTo (Nat.le_refl n) hn

theorem digits_padded (width n : Nat) : Digits (padded width (decimal n)) := by
  constructor
  · intro h
    exact (digits_decimal n).1 (List.append_eq_nil_iff.mp h).2
  · intro b hb
    rcases List.mem_append.mp hb with hb | hb
    · exact isDigit_of_mem_zeros hb
    · exact (digits_decimal n).2 b hb

/-! ### The digits of a floating-point number -/

/-- Digits, if there are any, of which the first is not a zero. -/
structure DigitRun.Starts (r : DigitRun) : Prop where
  digits : ∀ b ∈ r.digits, Text.isDigit b = true
  head : r.digits.head? ≠ some 0x30

theorem DigitRun.starts_nil (point : Int) : DigitRun.Starts ⟨[], point⟩ := by
  constructor
  · intro b hb
    cases hb
  · intro h
    cases h

theorem DigitRun.starts_ofDecimal (c : Nat) (e : Int) : (ofDecimal c e).Starts := by
  unfold ofDecimal
  split
  · exact starts_nil 0
  · rename_i hc
    have hpre : Text.dropTailWhile (· == 0x30) (decimal c) <+: decimal c := List.rdropWhile_prefix _ _
    constructor
    · intro b hb
      exact (digits_decimal c).2 b (hpre.subset hb)
    · intro hhead
      apply head?_decimal (Nat.pos_of_ne_zero hc)
      obtain ⟨t, ht⟩ := hpre
      obtain ⟨ds, hds⟩ := List.head?_eq_some_iff.mp hhead
      simp only at hds
      rw [← ht, hds]
      rfl

theorem Binary64.Span.starts_search (s : Span) (k : Int) (fuel n : Nat) :
    (s.search k fuel n).Starts := by
  induction fuel generalizing n with
  | zero => exact DigitRun.starts_ofDecimal _ _
  | succ fuel ih =>
      rw [search]
      split
      · exact DigitRun.starts_ofDecimal _ _
      · exact ih (n + 1)

theorem Binary64.starts_shortest (m : Nat) (e : Int) : (shortest m e).Starts := by
  unfold shortest
  split
  · exact DigitRun.starts_nil 0
  · exact Span.starts_search _ _ _ _

/-! ### Literals -/

/-- Digits, of which a zero in front stands alone. -/
structure IsWhole (t : Text) : Prop where
  digits : Digits t
  zero_alone : t.head? = some 0x30 → t = [0x30]

theorem isWhole_zero : IsWhole [0x30] := ⟨digits_singleton (d := 0) (by decide), fun _ => rfl⟩

theorem isWhole_of_head {t : Text} (ht : Digits t) (hhead : t.head? ≠ some 0x30) : IsWhole t :=
  ⟨ht, fun h => absurd h hhead⟩

theorem isWhole_decimal (n : Nat) : IsWhole (decimal n) := by
  rcases Nat.eq_zero_or_pos n with rfl | hn
  · exact isWhole_zero
  · exact isWhole_of_head (digits_decimal n) (head?_decimal hn)

/-- A text that is a literal with neither a sign nor an exponent. -/
def IsMantissa (t : Text) : Prop :=
  ∃ l : Literal, l.WellFormed ∧ l.exponent = none ∧ l.unsigned = t

/-- A text that is a literal without a sign. -/
def IsUnsigned (t : Text) : Prop := ∃ l : Literal, l.WellFormed ∧ l.unsigned = t

theorem IsMantissa.isUnsigned {t : Text} (h : IsMantissa t) : IsUnsigned t := by
  obtain ⟨l, hl, -, htext⟩ := h
  exact ⟨l, hl, htext⟩

theorem IsWhole.isMantissa {t : Text} (h : IsWhole t) : IsMantissa t := by
  refine ⟨⟨false, t, none, none⟩, ⟨h.digits, h.zero_alone, ?_, ?_⟩, rfl, List.append_nil t⟩
  · intro ds hds
    cases hds
  · intro mark ds hds
    cases hds

theorem IsWhole.point {whole fraction : Text} (h : IsWhole whole) (hfraction : Digits fraction) :
    IsMantissa (whole ++ 0x2E :: fraction) := by
  refine ⟨⟨false, whole, some fraction, none⟩, ⟨h.digits, h.zero_alone, ?_, ?_⟩, rfl, ?_⟩
  · intro ds hds
    rw [← Option.some.inj hds]
    exact hfraction
  · intro mark ds hds
    cases hds
  · exact congrArg (whole ++ ·) (List.append_nil _)

theorem IsMantissa.exponent {t : Text} (h : IsMantissa t) {sign : UInt8}
    (hsign : sign = 0x2D ∨ sign = 0x2B) {ds : Text} (hds : Digits ds) :
    IsUnsigned (t ++ 0x65 :: sign :: ds) := by
  obtain ⟨l, hl, hnone, rfl⟩ := h
  refine ⟨{ l with exponent := some ([0x65, sign], ds) },
    ⟨hl.whole, hl.zero_alone, hl.fraction, ?_⟩, ?_⟩
  · intro mark ds' h
    obtain ⟨rfl, rfl⟩ := Prod.mk.inj (Option.some.inj h)
    refine ⟨?_, hds⟩
    rcases hsign with rfl | rfl <;> decide
  · simp [Literal.unsigned, hnone, Json.exponentText]

namespace DigitRun

theorem Starts.isMantissa_positional {r : DigitRun} (h : r.Starts) : IsMantissa r.positional := by
  unfold positional
  split
  · exact isWhole_zero.isMantissa
  rename_i hempty
  have hne : r.digits ≠ [] := fun h => hempty (List.isEmpty_iff.mpr h)
  split
  · have hfraction : Digits (List.replicate (-r.point).toNat 0x30 ++ r.digits) := by
      constructor
      · intro h
        exact hne (List.append_eq_nil_iff.mp h).2
      · intro b hb
        rcases List.mem_append.mp hb with hb | hb
        · exact isDigit_of_mem_zeros hb
        · exact h.digits b hb
    simpa using isWhole_zero.point hfraction
  simp only
  split
  · apply IsWhole.isMantissa
    apply isWhole_of_head
    · exact digits_append ⟨hne, h.digits⟩ fun b hb => isDigit_of_mem_zeros hb
    · rw [List.head?_append_of_ne_nil _ hne]
      exact h.head
  · rename_i hpoint hlength
    have hpos : r.point.toNat ≠ 0 := by omega
    apply IsWhole.point
    · apply isWhole_of_head
      · constructor
        · simpa [hpos] using hne
        · exact fun b hb => h.digits b (List.mem_of_mem_take hb)
      · rw [List.head?_take, if_neg hpos]
        exact h.head
    · constructor
      · simpa using hlength
      · exact fun b hb => h.digits b (List.mem_of_mem_drop hb)

theorem sign_cases (e : Int) :
    (if e < 0 then 0x2D else 0x2B : UInt8) = 0x2D ∨ (if e < 0 then 0x2D else 0x2B : UInt8) = 0x2B := by
  split
  · exact .inl rfl
  · exact .inr rfl

theorem Starts.isUnsigned_scientific {r : DigitRun} (h : r.Starts) (width : Nat) :
    IsUnsigned (r.scientific width) := by
  obtain ⟨digits, point⟩ := r
  rcases digits with _ | ⟨d, _ | ⟨d', ds⟩⟩
  · exact isWhole_zero.isMantissa.exponent (sign_cases 0) (digits_padded width _)
  · have hone : IsWhole [d] := isWhole_of_head ⟨List.cons_ne_nil _ _, h.digits⟩ h.head
    exact hone.isMantissa.exponent (sign_cases (point - 1)) (digits_padded width _)
  · obtain ⟨hfirst, hrest⟩ := List.forall_mem_cons.mp h.digits
    have hone : IsWhole [d] :=
      isWhole_of_head ⟨List.cons_ne_nil _ _, List.forall_mem_singleton.mpr hfirst⟩ h.head
    have hpoint : IsMantissa (d :: 0x2E :: d' :: ds) := hone.point ⟨List.cons_ne_nil _ _, hrest⟩
    exact hpoint.exponent (sign_cases (point - 1)) (digits_padded width _)

end DigitRun

/-- A finite number is written as a literal. -/
theorem Layout.exists_literal (layout : Layout) (negative : Bool) (m : Nat) (e : Int) :
    ∃ l : Literal, l.WellFormed ∧ l.text = layout.write (.finite negative m e) := by
  have hstarts := Binary64.starts_shortest m e
  have hbody : IsUnsigned (if layout.usesExponent (Binary64.shortest m e) then
      (Binary64.shortest m e).scientific
        (if (Binary64.shortest m e).point - 1 < 0 then layout.negativeWidth else layout.positiveWidth)
      else (Binary64.shortest m e).positional) := by
    split
    · exact hstarts.isUnsigned_scientific _
    · exact hstarts.isMantissa_positional.isUnsigned
  obtain ⟨l, hl, htext⟩ := hbody
  refine ⟨{ l with negative := negative }, ⟨hl.whole, hl.zero_alone, hl.fraction, hl.exponent⟩, ?_⟩
  rw [Literal.text_eq]
  change _ ++ l.unsigned = _
  rw [htext, write]
  cases negative <;> rfl

namespace Numeral

/-- Infinite values and what is no number have no literal. -/
def isFinite : Numeral → Bool
  | int _ => true
  | float (.finite ..) => true
  | float _ => false

theorem exists_literal {n : Numeral} (h : n.isFinite = true) :
    ∃ l : Literal, l.WellFormed ∧ l.text = n.jsonText := by
  cases n with
  | int i =>
      cases i with
      | ofNat n =>
          obtain ⟨l, hl, -, htext⟩ := (isWhole_decimal n).isMantissa
          refine ⟨{ l with negative := false }, ⟨hl.whole, hl.zero_alone, hl.fraction, hl.exponent⟩, ?_⟩
          rw [Literal.text_eq]
          exact htext
      | negSucc n =>
          obtain ⟨l, hl, -, htext⟩ := (isWhole_decimal (n + 1)).isMantissa
          refine ⟨{ l with negative := true }, ⟨hl.whole, hl.zero_alone, hl.fraction, hl.exponent⟩, ?_⟩
          rw [Literal.text_eq]
          exact congrArg (0x2D :: ·) htext
  | float x =>
      cases x with
      | finite negative m e => exact Layout.exists_literal .json negative m e
      | infinite negative => cases h
      | notANumber => cases h

/-- The literal that a reader finds where the number is written. -/
def literal (n : Numeral) : Literal :=
  match Json.read n.jsonText with
  | .ok (.number l) => l
  | _ => ⟨false, [], none, none⟩

theorem literal_spec {n : Numeral} (h : n.isFinite = true) :
    n.literal.WellFormed ∧ n.jsonText = n.literal.text := by
  obtain ⟨l, hl, htext⟩ := exists_literal h
  have hread : Json.read n.jsonText = .ok (.number l) := by
    rw [← htext]
    exact Json.read_ok_iff.mpr ⟨(Json.IsValue.number hl).isDocument, Nat.zero_le _⟩
  have hliteral : n.literal = l := by
    rw [literal, hread]
  rw [hliteral]
  exact ⟨hl, htext.symm⟩

end Numeral

end Number

end ServiceKit
