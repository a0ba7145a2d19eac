import Mathlib
import ServiceKit.Text.Glyph

/-!
Reading and writing of UTF-8. Characters that are written and read again come back, and so do the bytes
of a text that is read and written again. A byte of ASCII divides a text into two that are read apart
from each other.
-/

namespace ServiceKit

namespace Glyph

theorem continuation?_of_toNat {b : UInt8} {n : Nat} (hb : b.toNat = n + 0x80) (h : n < 0x40) :
    continuation? b = some n := by
  have hlow : (0x80 : UInt8) ≤ b := by
    rw [UInt8.le_iff_toNat_le, hb]
    exact Nat.le_add_left 128 n
  have hhigh : b ≤ (0xBF : UInt8) := by
    rw [UInt8.le_iff_toNat_le, hb]
    change n + 128 ≤ 191
    omega
  simp [continuation?, hlow, hhigh, hb]

theorem charFrom?_toNat {least n : Nat} (c : Char) (hn : n = c.toNat) (h : least ≤ c.toNat) :
    charFrom? least n = some c := by
  have hc : c.toNat.isValidChar := c.valid
  rw [charFrom?, hn, if_pos ⟨h, hc⟩, Char.ofNat_toNat]

theorem toNat_ofNat_of_lt {n : Nat} (h : n < 256) : (UInt8.ofNat n).toNat = n := by
  rw [UInt8.toNat_ofNat', Nat.mod_eq_of_lt h]

/-! ### One character -/

theorem leading?_one {b : UInt8} {c : Char} (rest : Text) (hb : b.toNat = c.toNat)
    (hc : c.toNat ≤ 0x7F) : leading? b rest = some c := by
  have h : b < 0x80 := by
    rw [UInt8.lt_iff_toNat_lt, hb]
    exact Nat.lt_succ_of_le hc
  rw [leading?.eq_def, if_pos h, hb, Char.ofNat_toNat]

theorem leading?_two {b b1 : UInt8} {c : Char} (rest : Text)
    (hb : b.toNat = c.toNat / 64 % 0x20 + 0xC0) (hb1 : b1.toNat = c.toNat % 0x40 + 0x80)
    (hlow : 0x7F < c.toNat) (hhigh : c.toNat ≤ 0x7FF) : leading? b (b1 :: rest) = some c := by
  have h0 : ¬b < 0x80 := by rw [UInt8.lt_iff_toNat_lt, hb]; change ¬_ < 128; omega
  have h1 : ¬b < 0xC0 := by rw [UInt8.lt_iff_toNat_lt, hb]; change ¬_ < 192; omega
  have h2 : b < 0xE0 := by rw [UInt8.lt_iff_toNat_lt, hb]; change _ < 224; omega
  rw [leading?, if_neg h0, if_neg h1, if_pos h2]
  have hc1 := continuation?_of_toNat hb1 (Nat.mod_lt _ (by decide))
  simp only [hc1, Option.bind_eq_bind, Option.bind_some]
  exact charFrom?_toNat c (by omega) (by omega)

theorem leading?_three {b b1 b2 : UInt8} {c : Char} (rest : Text)
    (hb : b.toNat = c.toNat / 4096 % 0x10 + 0xE0) (hb1 : b1.toNat = c.toNat / 64 % 0x40 + 0x80)
    (hb2 : b2.toNat = c.toNat % 0x40 + 0x80) (hlow : 0x7FF < c.toNat) (hhigh : c.toNat ≤ 0xFFFF) :
    leading? b (b1 :: b2 :: rest) = some c := by
  have h0 : ¬b < 0x80 := by rw [UInt8.lt_iff_toNat_lt, hb]; change ¬_ < 128; omega
  have h1 : ¬b < 0xC0 := by rw [UInt8.lt_iff_toNat_lt, hb]; change ¬_ < 192; omega
  have h2 : ¬b < 0xE0 := by rw [UInt8.lt_iff_toNat_lt, hb]; change ¬_ < 224; omega
  have h3 : b < 0xF0 := by rw [UInt8.lt_iff_toNat_lt, hb]; change _ < 240; omega
  rw [leading?, if_neg h0, if_neg h1, if_neg h2, if_pos h3]
  have hc1 := continuation?_of_toNat hb1 (Nat.mod_lt _ (by decide))
  have hc2 := continuation?_of_toNat hb2 (Nat.mod_lt _ (by decide))
  simp only [hc1, hc2, Option.bind_eq_bind, Option.bind_some]
  exact charFrom?_toNat c (by omega) (by omega)

theorem leading?_four {b b1 b2 b3 : UInt8} {c : Char} (rest : Text)
    (hb : b.toNat = c.toNat / 262144 % 0x08 + 0xF0)
    (hb1 : b1.toNat = c.toNat / 4096 % 0x40 + 0x80) (hb2 : b2.toNat = c.toNat / 64 % 0x40 + 0x80)
    (hb3 : b3.toNat = c.toNat % 0x40 + 0x80) (hlow : 0xFFFF < c.toNat)
    (hhigh : c.toNat < 0x110000) : leading? b (b1 :: b2 :: b3 :: rest) = some c := by
  have h0 : ¬b < 0x80 := by rw [UInt8.lt_iff_toNat_lt, hb]; change ¬_ < 128; omega
  have h1 : ¬b < 0xC0 := by rw [UInt8.lt_iff_toNat_lt, hb]; change ¬_ < 192; omega
  have h2 : ¬b < 0xE0 := by rw [UInt8.lt_iff_toNat_lt, hb]; change ¬_ < 224; omega
  have h3 : ¬b < 0xF0 := by rw [UInt8.lt_iff_toNat_lt, hb]; change ¬_ < 240; omega
  have h4 : b < 0xF8 := by rw [UInt8.lt_iff_toNat_lt, hb]; change _ < 248; omega
  rw [leading?, if_neg h0, if_neg h1, if_neg h2, if_neg h3, if_pos h4]
  have hc1 := continuation?_of_toNat hb1 (Nat.mod_lt _ (by decide))
  have hc2 := continuation?_of_toNat hb2 (Nat.mod_lt _ (by decide))
  have hc3 := continuation?_of_toNat hb3 (Nat.mod_lt _ (by decide))
  -- rewriting by hand: a simplified product with the greatest factor is slow to check
  change (continuation? b1).bind _ = _
  rw [hc1, Option.bind_some]
  change (continuation? b2).bind _ = _
  rw [hc2, Option.bind_some]
  change (continuation? b3).bind _ = _
  rw [hc3, Option.bind_some]
  exact charFrom?_toNat c (by omega) (by omega)

theorem toNat_lt (c : Char) : c.toNat < 0x110000 := by
  rcases c.valid with h | h
  · exact lt_trans h (by decide)
  · exact h.2

theorem encode_eq (c : Char) : String.utf8EncodeChar c =
    if c.toNat ≤ 0x7F then [UInt8.ofNat c.toNat]
    else if c.toNat ≤ 0x7FF then
      [UInt8.ofNat (c.toNat / 64 % 0x20 + 0xC0), UInt8.ofNat (c.toNat % 0x40 + 0x80)]
    else if c.toNat ≤ 0xFFFF then
      [UInt8.ofNat (c.toNat / 4096 % 0x10 + 0xE0), UInt8.ofNat (c.toNat / 64 % 0x40 + 0x80),
        UInt8.ofNat (c.toNat % 0x40 + 0x80)]
    else
      [UInt8.ofNat (c.toNat / 262144 % 0x08 + 0xF0), UInt8.ofNat (c.toNat / 4096 % 0x40 + 0x80),
        UInt8.ofNat (c.toNat / 64 % 0x40 + 0x80), UInt8.ofNat (c.toNat % 0x40 + 0x80)] := rfl

/-- A character that is written is read again, whatever follows it. -/
theorem leading?_encode (c : Char) (rest : Text) :
    ∃ b tail, String.utf8EncodeChar c = b :: tail ∧ leading? b (tail ++ rest) = some c := by
  have hmax := toNat_lt c
  rw [encode_eq]
  split_ifs with h1 h2 h3
  · exact ⟨_, _, rfl, leading?_one _ (toNat_ofNat_of_lt (by omega)) h1⟩
  · exact ⟨_, _, rfl, leading?_two _ (toNat_ofNat_of_lt (by omega))
      (toNat_ofNat_of_lt (by omega)) (by omega) h2⟩
  · exact ⟨_, _, rfl, leading?_three _ (toNat_ofNat_of_lt (by omega))
      (toNat_ofNat_of_lt (by omega)) (toNat_ofNat_of_lt (by omega)) (by omega) h3⟩
  · exact ⟨_, _, rfl, leading?_four _ (toNat_ofNat_of_lt (by omega))
      (toNat_ofNat_of_lt (by omega)) (toNat_ofNat_of_lt (by omega))
      (toNat_ofNat_of_lt (by omega)) (by omega) hmax⟩

theorem toNat_of_mem_encode {b : UInt8} {c : Char} (hb : b < 0x80)
    (h : b ∈ String.utf8EncodeChar c) : c.toNat = b.toNat := by
  have hmax := toNat_lt c
  have high {n : Nat} (hn : 0x80 ≤ n) (hn' : n < 256) : b ≠ UInt8.ofNat n := by
    rintro rfl
    have hlt : (UInt8.ofNat n).toNat < 128 := hb
    rw [toNat_ofNat_of_lt hn'] at hlt
    omega
  rw [encode_eq] at h
  split_ifs at h with h1 h2 h3 <;> simp only [List.mem_cons, List.not_mem_nil, or_false] at h
  · rw [h, toNat_ofNat_of_lt (by omega)]
  · rcases h with h | h <;> exact absurd h (high (by omega) (by omega))
  · rcases h with h | h | h <;> exact absurd h (high (by omega) (by omega))
  · rcases h with h | h | h | h <;> exact absurd h (high (by omega) (by omega))

/-! ### The end of a character -/

theorem not_continuation {b : UInt8} (h : b < 0x80) : continuation? b = none := by
  have hlow : ¬(0x80 : UInt8) ≤ b := UInt8.not_le.mpr h
  simp [continuation?, hlow]

theorem continuation?_eq_some {b : UInt8} {n : Nat} (h : continuation? b = some n) :
    b.toNat = n + 0x80 ∧ n < 0x40 := by
  unfold continuation? at h
  split at h
  · rename_i hb
    simp only [Bool.and_eq_true, decide_eq_true_eq, UInt8.le_iff_toNat_le] at hb
    have hlow : 128 ≤ b.toNat := hb.1
    have hhigh : b.toNat ≤ 191 := hb.2
    obtain rfl := Option.some.inj h
    clear hb h
    omega
  · cases h

/-- No character goes on in a byte of ASCII. -/
theorem leading?_append_ascii (a : UInt8) {b : UInt8} (h : b < 0x80) (s t : Text) :
    leading? a (s ++ b :: t) = leading? a s := by
  have hb := not_continuation h
  rcases s with _ | ⟨x, _ | ⟨y, _ | ⟨z, s⟩⟩⟩
  · cases t with
    | nil => simp [leading?, hb]
    | cons u t => cases t <;> simp [leading?, hb]
  · cases t <;> cases hx : continuation? x <;> simp [leading?, hb, hx]
  · cases hx : continuation? x <;> cases hy : continuation? y <;> simp [leading?, hb, hx, hy]
  · simp [leading?]

theorem charFrom?_eq_some {least n : Nat} {c : Char} (h : charFrom? least n = some c) :
    least ≤ n ∧ c.toNat = n := by
  unfold charFrom? at h
  split at h
  · rename_i hn
    cases h
    exact ⟨hn.1, by rw [Char.toNat_ofNat, if_pos hn.2]⟩
  · cases h

/-- What can start a text: one byte, or up to three more that carry on from it. -/
theorem leading?_cases {b : UInt8} {s : Text} {c : Char} (h : leading? b s = some c) :
    (b.toNat = c.toNat ∧ c.toNat ≤ 0x7F) ∨
      (∃ b1 rest, s = b1 :: rest ∧ b.toNat = c.toNat / 64 % 0x20 + 0xC0 ∧
        b1.toNat = c.toNat % 0x40 + 0x80 ∧ 0x7F < c.toNat ∧ c.toNat ≤ 0x7FF) ∨
      (∃ b1 b2 rest, s = b1 :: b2 :: rest ∧ b.toNat = c.toNat / 4096 % 0x10 + 0xE0 ∧
        b1.toNat = c.toNat / 64 % 0x40 + 0x80 ∧ b2.toNat = c.toNat % 0x40 + 0x80 ∧
        0x7FF < c.toNat ∧ c.toNat ≤ 0xFFFF) ∨
      ∃ b1 b2 b3 rest, s = b1 :: b2 :: b3 :: rest ∧ b.toNat = c.toNat / 262144 % 0x08 + 0xF0 ∧
        b1.toNat = c.toNat / 4096 % 0x40 + 0x80 ∧ b2.toNat = c.toNat / 64 % 0x40 + 0x80 ∧
        b3.toNat = c.toNat % 0x40 + 0x80 ∧ 0xFFFF < c.toNat := by
  unfold leading? at h
  split at h
  · rename_i hlow
    have hlow : b.toNat < 128 := hlow
    obtain rfl := Option.some.inj h
    rw [Char.toNat_ofNat, if_pos (Or.inl (by omega))]
    exact .inl ⟨rfl, Nat.le_of_lt_succ hlow⟩
  split at h
  · cases h
  rename_i hone
  have hone : ¬b.toNat < 192 := hone
  split at h
  · rename_i htwo
    have htwo : b.toNat < 224 := htwo
    split at h
    · rename_i b1 rest
      obtain ⟨c1, h1, h⟩ := Option.bind_eq_some_iff.mp h
      have hc1 := continuation?_eq_some h1
      have hc := charFrom?_eq_some h
      exact .inr (.inl ⟨b1, rest, rfl, by omega⟩)
    · cases h
  rename_i htwo
  have htwo : ¬b.toNat < 224 := htwo
  split at h
  · rename_i hthree
    have hthree : b.toNat < 240 := hthree
    split at h
    · rename_i b1 b2 rest
      obtain ⟨c1, h1, h⟩ := Option.bind_eq_some_iff.mp h
      obtain ⟨c2, h2, h⟩ := Option.bind_eq_some_iff.mp h
      have hc1 := continuation?_eq_some h1
      have hc2 := continuation?_eq_some h2
      have hc := charFrom?_eq_some h
      exact .inr (.inr (.inl ⟨b1, b2, rest, rfl, by omega⟩))
    · cases h
  rename_i hthree
  have hthree : ¬b.toNat < 240 := hthree
  split at h
  · rename_i hfour
    have hfour : b.toNat < 248 := hfour
    split at h
    · rename_i b1 b2 b3 rest
      obtain ⟨c1, h1, h⟩ := Option.bind_eq_some_iff.mp h
      obtain ⟨c2, h2, h⟩ := Option.bind_eq_some_iff.mp h
      obtain ⟨c3, h3, h⟩ := Option.bind_eq_some_iff.mp h
      have hc1 := continuation?_eq_some h1
      have hc2 := continuation?_eq_some h2
      have hc3 := continuation?_eq_some h3
      have hc := charFrom?_eq_some h
      exact .inr (.inr (.inr ⟨b1, b2, b3, rest, rfl, by omega⟩))
    · cases h
  · cases h

theorem ofNat_of_toNat {b : UInt8} {n : Nat} (h : b.toNat = n) : UInt8.ofNat n = b := by
  rw [← h, UInt8.ofNat_toNat]

/-- The bytes that a character is read from are those that it is written with. -/
theorem encode_of_leading? {b : UInt8} {s : Text} {c : Char} (h : leading? b s = some c) :
    ∃ tail rest, String.utf8EncodeChar c = b :: tail ∧ s = tail ++ rest := by
  rw [encode_eq]
  obtain ⟨hb, hc⟩ | ⟨b1, rest, rfl, hb, hb1, hlow, hc⟩ | ⟨b1, b2, rest, rfl, hb, hb1, hb2, hlow, hc⟩ |
    ⟨b1, b2, b3, rest, rfl, hb, hb1, hb2, hb3, hlow⟩ := leading?_cases h
  · rw [if_pos hc, ofNat_of_toNat hb]
    exact ⟨[], s, rfl, rfl⟩
  · rw [if_neg (by omega), if_pos hc, ofNat_of_toNat hb, ofNat_of_toNat hb1]
    exact ⟨[b1], rest, rfl, rfl⟩
  · rw [if_neg (by omega), if_neg (by omega), if_pos hc, ofNat_of_toNat hb, ofNat_of_toNat hb1,
      ofNat_of_toNat hb2]
    exact ⟨[b1, b2], rest, rfl, rfl⟩
  · rw [if_neg (by omega), if_neg (by omega), if_neg (by omega), ofNat_of_toNat hb, ofNat_of_toNat hb1,
      ofNat_of_toNat hb2, ofNat_of_toNat hb3]
    exact ⟨[b1, b2, b3], rest, rfl, rfl⟩

theorem width_leading? {b : UInt8} {s : Text} {c : Char} (h : leading? b s = some c) :
    (char c).width ≤ s.length + 1 := by
  obtain ⟨tail, rest, hc, rfl⟩ := encode_of_leading? h
  rw [width, bytes, hc, List.length_append]
  exact Nat.succ_le_succ (Nat.le_add_right _ _)

theorem leading?_append {b : UInt8} {s : Text} {c : Char} (h : leading? b s = some c) (t : Text) :
    leading? b (s ++ t) = some c := by
  obtain ⟨tail, rest, hc, rfl⟩ := encode_of_leading? h
  obtain ⟨b', tail', hc', hread⟩ := leading?_encode c (rest ++ t)
  rw [hc] at hc'
  obtain ⟨rfl, rfl⟩ := List.cons.inj hc'
  rwa [List.append_assoc]

/-- Reading passes over the bytes that are left of a glyph. -/
theorem readFrom_append_of_length (xs t : Text) : readFrom xs.length (xs ++ t) = readFrom 0 t := by
  induction xs with
  | nil => rfl
  | cons x xs ih => simpa [readFrom] using ih

theorem readFrom_encode_append (c : Char) (t : Text) :
    readFrom 0 (String.utf8EncodeChar c ++ t) = char c :: readFrom 0 t := by
  obtain ⟨b, tail, he, hl⟩ := leading?_encode c t
  have hw : (char c).width - 1 = tail.length := by simp [width, bytes, he]
  rw [he, List.cons_append, readFrom, first, hl]
  simp only [hw, readFrom_append_of_length]

/-- A character of ASCII is read from its own byte only. -/
theorem mem_of_char_mem_readFrom {c : Char} (hc : c.toNat < 0x80) (n : Nat) (s : Text)
    (h : char c ∈ readFrom n s) : UInt8.ofNat c.toNat ∈ s := by
  induction s generalizing n with
  | nil => simp [readFrom] at h
  | cons b s ih =>
      cases n with
      | succ n => exact List.mem_cons_of_mem b (ih n h)
      | zero =>
          rw [readFrom] at h
          rcases List.mem_cons.mp h with h | h
          · rw [first] at h
            split at h
            · rename_i d hd
              obtain rfl := Glyph.char.inj h
              obtain ⟨tail, rest, hencode, -⟩ := encode_of_leading? hd
              rw [encode_eq, if_pos (Nat.le_of_lt_succ hc)] at hencode
              rw [(List.cons.inj hencode).1]
              exact List.mem_cons_self
            · cases h
          · exact List.mem_cons_of_mem b (ih _ h)

/-- A byte of ASCII is a character of its own, and what stands before it and after it is read apart. -/
theorem readFrom_append_ascii {b : UInt8} (h : b < 0x80) (n : Nat) (s t : Text)
    (hn : n ≤ s.length) :
    readFrom n (s ++ b :: t) = readFrom n s ++ char (Char.ofNat b.toNat) :: readFrom 0 t := by
  induction s generalizing n with
  | nil =>
      obtain rfl : n = 0 := Nat.le_zero.mp hn
      have hl : leading? b t = some (Char.ofNat b.toNat) := by rw [leading?.eq_def, if_pos h]
      have hw := width_leading? (s := []) (by rw [leading?.eq_def, if_pos h])
      have hz : (char (Char.ofNat b.toNat)).width - 1 = 0 := Nat.sub_eq_zero_of_le hw
      simp [readFrom, first, hl, hz]
  | cons a s ih =>
      cases n with
      | succ n => exact ih n (Nat.le_of_succ_le_succ hn)
      | zero =>
          have hf : first a (s ++ b :: t) = first a s := by
            rw [first, first, leading?_append_ascii a h]
          have hw : (first a s).width - 1 ≤ s.length := by
            rw [first]
            split
            · rename_i c hc
              have := width_leading? hc
              omega
            · simp [width, bytes]
          rw [List.cons_append, readFrom, hf, readFrom]
          simp only [ih _ hw, List.cons_append]

/-! ### All glyphs of a text -/

/-- The glyphs that a text is read as. -/
inductive Reads : Text → List Glyph → Prop
  | nil : Reads [] []
  | char (c : Char) {s : Text} {gs : List Glyph} : Reads s gs →
      Reads (String.utf8EncodeChar c ++ s) (.char c :: gs)
  | stray {b : UInt8} {s : Text} {gs : List Glyph} : leading? b s = none → Reads s gs →
      Reads (b :: s) (.stray b :: gs)

theorem Reads.glyphs_eq {s : Text} {gs : List Glyph} (h : Reads s gs) : s.glyphs = gs := by
  induction h with
  | nil => rfl
  | char c hs ih =>
      rw [Text.glyphs, readFrom_encode_append]
      exact congrArg _ ih
  | stray hb hs ih =>
      rw [Text.glyphs, readFrom, first, hb]
      exact congrArg _ ih

theorem Reads.ofGlyphs_eq {s : Text} {gs : List Glyph} (h : Reads s gs) : Text.ofGlyphs gs = s := by
  induction h with
  | nil => rfl
  | char c hs ih => exact congrArg (String.utf8EncodeChar c ++ ·) ih
  | @stray b s gs hb hs ih => exact congrArg (b :: ·) ih

theorem exists_reads (s : Text) : ∃ gs, Reads s gs := by
  induction hn : s.length using Nat.strong_induction_on generalizing s with
  | _ n ih =>
      subst hn
      cases s with
      | nil => exact ⟨[], .nil⟩
      | cons b s =>
          cases hfirst : leading? b s with
          | none =>
              obtain ⟨gs, hgs⟩ := ih s.length (Nat.lt_succ_self _) s rfl
              exact ⟨_, .stray hfirst hgs⟩
          | some c =>
              obtain ⟨tail, rest, hc, rfl⟩ := encode_of_leading? hfirst
              obtain ⟨gs, hgs⟩ := ih rest.length (by simp) rest rfl
              rw [← List.cons_append, ← hc]
              exact ⟨_, .char c hgs⟩

theorem reads_glyphs (s : Text) : Reads s s.glyphs := by
  obtain ⟨gs, hgs⟩ := exists_reads s
  rw [hgs.glyphs_eq]
  exact hgs

/-- Where its glyphs are divided, a text is divided too. -/
theorem Reads.exists_append {s : Text} {gs hs : List Glyph} (h : Reads s (gs ++ hs)) :
    ∃ t u, s = t ++ u ∧ Reads t gs ∧ Reads u hs := by
  induction gs generalizing s with
  | nil => exact ⟨[], s, rfl, .nil, h⟩
  | cons g gs ih =>
      cases h with
      | char c h =>
          obtain ⟨t, u, rfl, ht, hu⟩ := ih h
          exact ⟨_, u, (List.append_assoc _ _ _).symm, .char c ht, hu⟩
      | @stray b s _ hb h =>
          obtain ⟨t, u, rfl, ht, hu⟩ := ih h
          refine ⟨b :: t, u, rfl, .stray ?_ ht, hu⟩
          -- a byte that starts no character of the whole text starts none of its beginning
          cases hfirst : leading? b t with
          | none => rfl
          | some c =>
              rw [leading?_append hfirst u] at hb
              cases hb

end Glyph

namespace Text

@[simp] theorem ofChars_cons (c : Char) (cs : List Char) :
    ofChars (c :: cs) = String.utf8EncodeChar c ++ ofChars cs := rfl

@[simp] theorem ofChars_append (cs ds : List Char) :
    ofChars (cs ++ ds) = ofChars cs ++ ofChars ds := List.flatMap_append

theorem glyphs_ofChars (cs : List Char) : (ofChars cs).glyphs = cs.map Glyph.char := by
  induction cs with
  | nil => rfl
  | cons c cs ih =>
      rw [ofChars_cons, glyphs, Glyph.readFrom_encode_append, List.map_cons]
      exact congrArg _ ih

/-- Characters that are written are read again. -/
@[simp] theorem chars_ofChars (cs : List Char) : (ofChars cs).chars = cs := by
  rw [chars, glyphs_ofChars, List.map_map]
  exact List.map_id cs

@[simp] theorem ofGlyphs_glyphs (s : Text) : ofGlyphs s.glyphs = s := (Glyph.reads_glyphs s).ofGlyphs_eq

theorem isUtf8_ofChars (cs : List Char) : (ofChars cs).isUtf8 = true := by
  rw [isUtf8, glyphs_ofChars, List.all_map]
  exact List.all_eq_true.mpr fun c hc => rfl

/-- Well-formed UTF-8 is read without a loss. -/
theorem ofChars_chars {s : Text} (h : s.isUtf8 = true) : ofChars s.chars = s := by
  have hread := ofGlyphs_glyphs s
  have hchars : ∀ g ∈ s.glyphs, String.utf8EncodeChar g.shown = g.bytes := by
    intro g hg
    cases g with
    | char c => rfl
    | stray b => exact absurd (List.all_eq_true.mp h _ hg) (by simp [Glyph.isStray])
  rw [ofChars, chars, List.flatMap_map, List.flatMap_congr hchars]
  exact hread

/-- A part of the glyphs of a text is read again as it was. -/
theorem glyphs_ofGlyphs {s : Text} {before gs after : List Glyph}
    (h : s.glyphs = before ++ gs ++ after) : (ofGlyphs gs).glyphs = gs := by
  have hs := Glyph.reads_glyphs s
  rw [h, List.append_assoc] at hs
  obtain ⟨-, u, -, -, hu⟩ := hs.exists_append
  obtain ⟨t, -, -, ht, -⟩ := hu.exists_append
  rw [ht.ofGlyphs_eq, ht.glyphs_eq]

theorem glyphs_append_ascii {b : UInt8} (h : b < 0x80) (s t : Text) :
    Text.glyphs (s ++ b :: t) = s.glyphs ++ .char (Char.ofNat b.toNat) :: t.glyphs :=
  Glyph.readFrom_append_ascii h 0 s t (Nat.zero_le _)

theorem chars_append_ascii {b : UInt8} (h : b < 0x80) (s t : Text) :
    Text.chars (s ++ b :: t) = s.chars ++ Char.ofNat b.toNat :: t.chars := by
  simp [chars, glyphs_append_ascii h, Glyph.shown]

theorem encode_ascii {b : UInt8} (h : b < 0x80) :
    String.utf8EncodeChar (Char.ofNat b.toNat) = [b] := by
  have hb : b.toNat < 128 := h
  have hc : (Char.ofNat b.toNat).toNat = b.toNat := by
    rw [Char.toNat_ofNat, if_pos (Or.inl (by omega))]
  rw [Glyph.encode_eq, if_pos (by omega), hc, UInt8.ofNat_toNat]

theorem mem_of_mem_chars {c : Char} (hc : c.toNat < 0x80) {s : Text} (h : c ∈ s.chars) :
    UInt8.ofNat c.toNat ∈ s := by
  obtain ⟨g, hg, rfl⟩ := List.mem_map.mp h
  cases g with
  | char c => exact Glyph.mem_of_char_mem_readFrom hc 0 s hg
  | stray b => exact absurd hc (by change ¬Glyph.replacement.toNat < 0x80; decide)

theorem sanitize_append_ascii {b : UInt8} (h : b < 0x80) (s t : Text) :
    Text.sanitize (s ++ b :: t) = s.sanitize ++ b :: t.sanitize := by
  rw [sanitize, chars_append_ascii h, ofChars_append, ofChars_cons, encode_ascii h]
  rfl

theorem mem_sanitize_iff {b : UInt8} (hb : b < 0x80) {s : Text} : b ∈ s.sanitize ↔ b ∈ s := by
  constructor
  · intro h
    obtain ⟨c, hc, hmem⟩ := List.mem_flatMap.mp h
    have hpoint := Glyph.toNat_of_mem_encode hb hmem
    have hbyte := mem_of_mem_chars (by rw [hpoint]; exact hb) hc
    rwa [hpoint, UInt8.ofNat_toNat] at hbyte
  · intro h
    obtain ⟨p, t, rfl⟩ := List.append_of_mem h
    rw [sanitize_append_ascii hb]
    exact List.mem_append_right _ List.mem_cons_self

/-! ### Texts of some characters -/

/-- A text of characters of a kind. -/
def MadeOf (q : Char → Prop) (t : Text) : Prop := ∃ cs, t = ofChars cs ∧ ∀ c ∈ cs, q c

/-- The kind has the characters that one byte can number, from the space on. -/
def IncludesLatin (q : Char → Prop) : Prop := ∀ n, 0x20 ≤ n → n < 0x100 → q (Char.ofNat n)

namespace MadeOf

variable {q : Char → Prop} {s t : Text}

theorem nil : MadeOf q [] := ⟨[], rfl, List.forall_mem_nil _⟩

theorem append (hs : MadeOf q s) (ht : MadeOf q t) : MadeOf q (s ++ t) := by
  obtain ⟨cs, rfl, hcs⟩ := hs
  obtain ⟨ds, rfl, hds⟩ := ht
  exact ⟨cs ++ ds, (ofChars_append cs ds).symm, List.forall_mem_append.mpr ⟨hcs, hds⟩⟩

theorem char {c : Char} (hc : q c) : MadeOf q (String.utf8EncodeChar c) :=
  ⟨[c], (List.append_nil _).symm, List.forall_mem_singleton.mpr hc⟩

theorem flatMap {α : Type} {f : α → Text} {xs : List α} (h : ∀ x ∈ xs, MadeOf q (f x)) :
    MadeOf q (xs.flatMap f) := by
  induction xs with
  | nil => exact nil
  | cons x xs ih =>
      obtain ⟨hx, hxs⟩ := List.forall_mem_cons.mp h
      exact hx.append (ih hxs)

theorem mark (hq : IncludesLatin q) {b : UInt8} (hb : 0x20 ≤ b ∧ b < 0x80) (ht : MadeOf q t) :
    MadeOf q (b :: t) := by
  have hone : MadeOf q [b] := by
    rw [← encode_ascii hb.2]
    exact char (hq b.toNat hb.1 b.toNat_lt)
  exact hone.append ht

theorem ascii (hq : IncludesLatin q) (h : ∀ b ∈ t, 0x20 ≤ b ∧ b < 0x80) : MadeOf q t := by
  induction t with
  | nil => exact nil
  | cons b t ih =>
      obtain ⟨hb, ht⟩ := List.forall_mem_cons.mp h
      exact (ih ht).mark hq hb

theorem of_all (hq : IncludesLatin q) (h : (t.all fun b => 0x20 ≤ b && b < 0x80) = true) :
    MadeOf q t := by
  refine ascii hq fun b hb => ?_
  simpa using List.all_eq_true.mp h b hb

end MadeOf

end Text

end ServiceKit
