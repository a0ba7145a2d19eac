import Mathlib
import ServiceKit.Number.Binary64

/-!
Which decimals are too large for a floating-point number of 64 bits.
-/

namespace ServiceKit.Number

/-! ### Digits -/

theorem foldl_digits (acc : Nat) (s : Text) :
    s.foldl (fun acc b => acc * 10 + (b.toNat - 0x30)) acc = acc * 10 ^ s.length + ofDigits s := by
  induction s generalizing acc with
  | nil => simp [ofDigits]
  | cons b s ih =>
      rw [ofDigits, List.foldl_cons, List.foldl_cons, ih, ih (0 * 10 + _), List.length_cons]
      ring

theorem ofDigits_append (s t : Text) :
    ofDigits (s ++ t) = ofDigits s * 10 ^ t.length + ofDigits t := by
  rw [ofDigits, List.foldl_append]
  exact foldl_digits _ t

theorem ofDigits_cons (b : UInt8) (s : Text) :
    ofDigits (b :: s) = (b.toNat - 0x30) * 10 ^ s.length + ofDigits s := by
  rw [← List.singleton_append, ofDigits_append]
  simp [ofDigits]

theorem ofDigits_zeros (n : Nat) : ofDigits (List.replicate n 0x30) = 0 := by
  induction n with
  | zero => rfl
  | succ n ih => rw [List.replicate_succ, ofDigits_cons, ih]; simp

theorem ofDigits_one_zeros (n : Nat) : ofDigits (0x31 :: List.replicate n 0x30) = 10 ^ n := by
  rw [ofDigits_cons, ofDigits_zeros, List.length_replicate]
  exact Nat.one_mul _

theorem isDigit_iff {b : UInt8} : Text.isDigit b = true ↔ 0x30 ≤ b.toNat ∧ b.toNat ≤ 0x39 := by
  simp only [Text.isDigit, Bool.and_eq_true, decide_eq_true_eq, UInt8.le_iff_toNat_le]
  rfl

theorem isDigit_of_mem_zeros {n : Nat} {b : UInt8} (h : b ∈ List.replicate n 0x30) :
    Text.isDigit b = true := by
  rw [List.eq_of_mem_replicate h]
  decide

theorem ofDigits_lt {s : Text} (hs : ∀ b ∈ s, Text.isDigit b = true) :
    ofDigits s < 10 ^ s.length := by
  induction s with
  | nil => decide
  | cons b s ih =>
      have hb := isDigit_iff.mp (hs b List.mem_cons_self)
      have htail := ih fun c hc => hs c (List.mem_cons_of_mem b hc)
      have hdigit : (b.toNat - 0x30) * 10 ^ s.length ≤ 9 * 10 ^ s.length :=
        Nat.mul_le_mul_right _ (by omega)
      rw [ofDigits_cons, List.length_cons, pow_succ]
      omega

/-- Zeros in front do not count. -/
theorem ofDigits_significant (s : Text) : ofDigits (significant s) = ofDigits s := by
  induction s with
  | nil => rfl
  | cons b s ih =>
      rw [significant, List.dropWhile_cons]
      split
      · rename_i hb
        obtain rfl : b = 0x30 := by simpa using hb
        rw [ofDigits_cons, ← ih]
        simp [significant]
      · rfl

theorem significant_sublist (s : Text) : (significant s).Sublist s := List.dropWhile_sublist _

/-- The first significant digit makes a number as large as its length says. -/
theorem pow_le_ofDigits_take {s : Text} (hs : ∀ b ∈ s, Text.isDigit b = true) {n : Nat}
    (hn : n < (significant s).length) : 10 ^ n ≤ ofDigits ((significant s).take (n + 1)) := by
  cases hsig : significant s with
  | nil =>
      rw [hsig] at hn
      cases hn
  | cons b t =>
      have hb : b ≠ 0x30 := by
        have h := List.head?_dropWhile_not (fun c : UInt8 => c == 0x30) s
        unfold significant at hsig
        rw [hsig] at h
        simpa using h
      have hdigit := isDigit_iff.mp (hs b ((significant_sublist s).subset (hsig ▸ List.mem_cons_self)))
      have hpos : 1 ≤ b.toNat - 0x30 := by
        have hne : b.toNat ≠ 0x30 := fun h => hb (UInt8.toNat_inj.mp h)
        omega
      rw [hsig, List.length_cons] at hn
      have hlen : (t.take n).length = n := List.length_take_of_le (by omega)
      rw [List.take_succ_cons, ofDigits_cons, hlen]
      exact Nat.le_trans (Nat.le_mul_of_pos_left _ hpos) (Nat.le_add_right _ _)

theorem ofDigits_take_le (s : Text) (n : Nat) : ofDigits (s.take n) ≤ ofDigits s := by
  conv_rhs => rw [← List.take_append_drop n s, ofDigits_append]
  exact Nat.le_trans (Nat.le_mul_of_pos_right _ (Nat.pow_pos (by decide))) (Nat.le_add_right _ _)

/-- A number lies between the powers of ten that the number of its digits tells. -/
theorem digitsUpTo_bounds {fuel n : Nat} (h : n ≤ fuel) :
    n < 10 ^ (digitsUpTo 10 fuel n).length ∧
      (0 < n → 10 ^ (digitsUpTo 10 fuel n).length ≤ 10 * n) := by
  induction fuel generalizing n with
  | zero =>
      obtain rfl := Nat.le_zero.mp h
      decide
  | succ fuel ih =>
      rw [digitsUpTo]
      split
      · rename_i hn
        simp only [List.length_singleton, pow_one]
        omega
      · rename_i hn
        obtain ⟨hlt, hle⟩ := ih (n := n / 10) (by omega)
        have hle := hle (by omega)
        rw [List.length_append, List.length_singleton, pow_succ]
        omega

theorem decimal_bounds (n : Nat) :
    n < 10 ^ (decimal n).length ∧ (0 < n → 10 ^ (decimal n).length ≤ 10 * n) :=
  digitsUpTo_bounds (Nat.le_refl n)

/-! ### Decimals -/

/-- A decimal without its sign, as a rational number. -/
def Decimal.magnitude (d : Decimal) : ℚ := d.coefficient * 10 ^ d.exponent

namespace Binary64

/-- The least magnitude that is too large. -/
def bound : ℚ := 2 ^ 1024 - 2 ^ 970

theorem cast_pow2 (k : Nat) : ((pow2 k : Nat) : ℚ) = 2 ^ k := by
  simp [pow2]

theorem cast_pow10 (k : Nat) : ((pow10 k : Nat) : ℚ) = 10 ^ k := by
  simp [pow10]

theorem pow2_le {j k : Nat} (h : j ≤ k) : pow2 j ≤ pow2 k := Nat.pow_le_pow_right (by decide) h

theorem cast_overflowBound : (overflowBound : ℚ) = bound := by
  have hle : pow2 970 ≤ pow2 1024 := pow2_le (by decide)
  rw [overflowBound, Nat.cast_sub hle, cast_pow2, cast_pow2, bound]

theorem one_lt_bound : 1 < bound := by
  have h : 1 < overflowBound := by decide +kernel
  rw [← cast_overflowBound]
  exact_mod_cast h

theorem lt_bound : 10 ^ (308 : Int) < bound := by
  have h : pow10 308 < overflowBound := by decide +kernel
  have hcast : ((10 : ℚ) ^ (308 : Int)) = (pow10 308 : Nat) := by rw [cast_pow10]; rfl
  rw [← cast_overflowBound, hcast]
  exact_mod_cast h

theorem bound_le : bound ≤ 10 ^ (310 : Int) := by
  have h : overflowBound ≤ pow10 310 := by decide +kernel
  have hcast : ((10 : ℚ) ^ (310 : Int)) = (pow10 310 : Nat) := by rw [cast_pow10]; rfl
  rw [← cast_overflowBound, hcast]
  exact_mod_cast h

theorem ofFraction?_eq_none_iff {negative : Bool} {num den : Nat} (hden : 0 < den) :
    ofFraction? negative num den = none ↔ bound ≤ num / den := by
  have hpos : (0 : ℚ) < den := by exact_mod_cast hden
  rw [ofFraction?, ← cast_overflowBound, le_div_iff₀ hpos, ← Nat.cast_mul, Nat.cast_le]
  split <;> simp_all

theorem fractionOf_div (c : Nat) (e : Int) :
    0 < (fractionOf c e).2 ∧ ((fractionOf c e).1 : ℚ) / (fractionOf c e).2 = c * 10 ^ e := by
  unfold fractionOf
  split
  · rename_i he
    obtain ⟨k, rfl⟩ := Int.eq_ofNat_of_zero_le he
    simp [cast_pow10]
  · rename_i he
    obtain ⟨k, rfl⟩ : ∃ k : Nat, e = -k := ⟨e.natAbs, by omega⟩
    refine ⟨Nat.pow_pos (by decide), ?_⟩
    simp [cast_pow10, div_eq_mul_inv]

/-- A decimal has no nearest value exactly from the bound on. -/
theorem ofDecimal?_eq_none_iff (d : Decimal) : ofDecimal? d = none ↔ bound ≤ d.magnitude := by
  obtain ⟨negative, c, e⟩ := d
  unfold ofDecimal? Decimal.magnitude
  simp only
  split
  · rename_i hc
    subst hc
    simpa using one_lt_bound.trans' one_pos
  rename_i hc
  obtain ⟨hlt, hle⟩ := decimal_bounds c
  have hle := hle (Nat.pos_of_ne_zero hc)
  generalize (decimal c).length = n at hlt hle
  have hlt : (c : ℚ) < 10 ^ n := by exact_mod_cast hlt
  have hle : (10 : ℚ) ^ n ≤ 10 * c := by exact_mod_cast hle
  have hpos : (0 : ℚ) < 10 ^ e := by positivity
  have hscale : (10 : ℚ) ^ n * 10 ^ e = 10 ^ ((n : Int) + e) := by
    rw [zpow_add₀ (by norm_num), zpow_natCast]
  split
  · rename_i hlarge
    refine iff_of_true rfl (le_of_mul_le_mul_left ?_ (by norm_num : (0 : ℚ) < 10))
    calc 10 * bound ≤ 10 * 10 ^ (310 : Int) := by gcongr; exact bound_le
      _ = 10 ^ (311 : Int) := by rw [← zpow_one_add₀ (by norm_num)]; rfl
      _ ≤ 10 ^ ((n : Int) + e) := zpow_le_zpow_right₀ (by norm_num) (by omega)
      _ = 10 ^ n * 10 ^ e := hscale.symm
      _ ≤ 10 * c * 10 ^ e := by gcongr
      _ = 10 * (c * 10 ^ e) := by ring
  split
  · rename_i hsmall
    refine iff_of_false (by simp) (not_le.mpr ?_)
    calc (c : ℚ) * 10 ^ e < 10 ^ n * 10 ^ e := by gcongr
      _ = 10 ^ ((n : Int) + e) := hscale
      _ ≤ 10 ^ (0 : Int) := zpow_le_zpow_right₀ (by norm_num) (by omega)
      _ < bound := by simpa using one_lt_bound
  · obtain ⟨hden, hdiv⟩ := fractionOf_div c e
    rw [← hdiv]
    exact ofFraction?_eq_none_iff hden

/-! ### Values that are read are finite -/

theorem isFinite_nearest (negative : Bool) (num den : Nat) :
    (nearest negative num den).isFinite = true := by
  unfold nearest
  simp only
  split <;> rfl

theorem isFinite_of_ofDecimal? {d : Decimal} {x : Binary64} (h : ofDecimal? d = some x) :
    x.isFinite = true := by
  unfold ofDecimal? at h
  split at h
  · cases h
    rfl
  simp only at h
  split at h
  · cases h
  split at h
  · cases h
    rfl
  · rw [ofFraction?] at h
    split at h
    · cases h
    · cases h
      exact isFinite_nearest d.negative _ _

end Binary64

end ServiceKit.Number
