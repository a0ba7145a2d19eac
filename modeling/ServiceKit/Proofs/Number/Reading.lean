import Mathlib
import ServiceKit.Number.Reading
import ServiceKit.Proofs.Number.Written

/-!
Whole numbers that are read from their decimal digits.
-/

namespace ServiceKit.Number

theorem digitsIn_ten (limit acc : Nat) {t : Text} (ht : ∀ b ∈ t, Text.isDigit b = true)
    (h : acc * 10 ^ t.length + ofDigits t ≤ limit) :
    digitsIn 10 limit acc t = .ok (acc * 10 ^ t.length + ofDigits t) := by
  induction t generalizing acc with
  | nil => exact congrArg Except.ok (by simp [ofDigits])
  | cons b t ih =>
      obtain ⟨hb, ht⟩ := List.forall_mem_cons.mp ht
      obtain ⟨hlow, hhigh⟩ := isDigit_iff.mp hb
      have hvalue : digitValue? b = some (b.toNat - 0x30) := if_pos hb
      have hnext : acc * 10 ^ (b :: t).length + ofDigits (b :: t) =
          (acc * 10 + (b.toNat - 0x30)) * 10 ^ t.length + ofDigits t := by
        rw [ofDigits_cons, List.length_cons]
        ring
      rw [hnext] at h ⊢
      have hpow : acc * 10 + (b.toNat - 0x30) ≤ (acc * 10 + (b.toNat - 0x30)) * 10 ^ t.length :=
        Nat.le_mul_of_pos_right _ (Nat.pow_pos (by decide))
      rw [digitsIn, hvalue]
      simp only
      rw [if_neg (by omega), if_neg (by omega), ih _ ht h]

theorem underscoresFit_of_not_mem {isDigit : UInt8 → Bool} {afterDigit : Bool} {t : Text}
    (h : 0x5F ∉ t) : underscoresFit isDigit afterDigit t = true := by
  induction t generalizing afterDigit with
  | nil => rfl
  | cons b t ih =>
      rw [List.mem_cons, not_or] at h
      rw [underscoresFit]
      · exact ih h.2
      · rintro rfl
        exact h.1 rfl

theorem naturalOf_whole {t : Text} (ht : IsWhole t) (h : ofDigits t < pow2 64) :
    naturalOf 0 t = .ok (ofDigits t) := by
  obtain ⟨⟨hne, hdigits⟩, hzero⟩ := ht
  by_cases hhead : t.head? = some 0x30
  · rw [hzero hhead]
    rfl
  · have hbase : announcedBase t = (10, t) := by
      unfold announcedBase
      split
      · exact absurd rfl hhead
      · exact absurd rfl hhead
      · rfl
    have hunderscore : 0x5F ∉ t := fun hmem => absurd (hdigits _ hmem) (by decide)
    have hdrop : dropUnderscores t = t := by
      refine List.filter_eq_self.mpr fun b hb => bne_iff_ne.mpr ?_
      rintro rfl
      exact hunderscore hb
    have hread := digitsIn_ten (pow2 64 - 1) 0 hdigits (by omega)
    rw [Nat.zero_mul, Nat.zero_add] at hread
    rw [naturalOf]
    · simp only [if_true, hbase, hdrop, hread, bind, Except.bind, underscoresFit_of_not_mem hunderscore]
    · exact hne

/-- A whole number in decimal digits is read as what it says, if 63 bits suffice. -/
theorem integerOf_whole {t : Text} (ht : IsWhole t) (h : ofDigits t < pow2 63) :
    integerOf 0 t = .ok (ofDigits t) := by
  have hdouble : pow2 63 ≤ pow2 64 := Binary64.pow2_le (by decide)
  have hsign : signOf t = (false, t) := by
    have hdigits := ht.1.2
    unfold signOf
    split
    · exact absurd (hdigits _ List.mem_cons_self) (by decide)
    · exact absurd (hdigits _ List.mem_cons_self) (by decide)
    · rfl
  rw [integerOf, hsign]
  simp only [naturalOf_whole ht (h.trans_le hdouble), bind, Except.bind]
  rw [if_neg Bool.false_ne_true, if_pos h]

end ServiceKit.Number
