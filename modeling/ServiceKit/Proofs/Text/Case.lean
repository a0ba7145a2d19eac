import Mathlib
import ServiceKit.Proofs.Text.Pieces
import ServiceKit.Proofs.Text.Utf8
import ServiceKit.Text.Case

/-!
Lower case. A text in lower case stays as it is, a byte of ASCII that is no letter divides a text
into two that are lowered apart from each other, and of two texts in lower case that differ in case
only, one of them a word without the letters k and s, both are the same.
-/

namespace ServiceKit.Text

namespace CaseRun

/-- Does the image of one run have no point in another run? Either it ends before the other run or
starts after it, or the two go in steps of two side by side. -/
def missesRun (r s : CaseRun) : Bool :=
  s.last < r.target || r.target + (r.last - r.first) < s.first
    || ((r.step == 2 || r.first == r.last) && s.step == 2 && (r.target + s.first) % 2 == 1)

theorem not_holds_map {r s : CaseRun} {n : Nat} (hn : r.holds n = true)
    (h : r.missesRun s = true) : s.holds (r.map n) = false := by
  simp only [holds, Bool.and_eq_true, decide_eq_true_eq, beq_iff_eq] at hn
  simp only [missesRun, Bool.or_eq_true, Bool.and_eq_true, decide_eq_true_eq, beq_iff_eq] at h
  obtain ⟨⟨hfirst, hlast⟩, hstep⟩ := hn
  rw [Bool.eq_false_iff]
  intro hs
  simp only [holds, Bool.and_eq_true, decide_eq_true_eq, beq_iff_eq] at hs
  rw [map] at hs
  obtain ⟨⟨hsfirst, hslast⟩, hsstep⟩ := hs
  rcases h with (h | h) | ⟨⟨hr, h2⟩, hodd⟩
  · omega
  · omega
  · rw [h2] at hsstep
    rcases hr with hr | hr
    · rw [hr] at hstep
      omega
    · omega

theorem lowerTable_missesRun :
    lowerTable.all (fun r => lowerTable.all fun s => r.missesRun s) = true := by
  decide +kernel

/-- Of the letters outside ASCII, only two have a lower-case form in ASCII. -/
theorem lowerTable_ascii : lowerTable.all (fun r =>
    0x80 ≤ r.target || (r.first == r.last && ((r.first == 0x130 && r.target == 0x69)
      || (r.first == 0x212A && r.target == 0x6B)))) = true := by
  decide +kernel

/-- Of the letters outside ASCII, only two have an upper-case form in ASCII. -/
theorem upperTable_ascii : upperTable.all (fun r =>
    0x80 ≤ r.target || (r.first == r.last && ((r.first == 0x131 && r.target == 0x49)
      || (r.first == 0x17F && r.target == 0x53)))) = true := by
  decide +kernel

/-- Does a run have no point with a given image? -/
def avoids (r : CaseRun) (n : Nat) : Bool := n < r.target || r.target + (r.last - r.first) < n

theorem upperTable_avoids :
    upperTable.all (fun r => r.avoids 0x130 && r.avoids 0x212A) = true := by
  decide +kernel

theorem apply_eq (table : List CaseRun) (n : Nat) :
    apply table n = n ∨ ∃ r ∈ table, r.holds n = true ∧ apply table n = r.map n := by
  unfold apply
  split
  · rename_i r h
    exact .inr ⟨r, List.mem_of_find?_eq_some h, by simpa using List.find?_some h, rfl⟩
  · exact .inl rfl

/-- A table that brings two letters into ASCII brings no others there. -/
theorem apply_of_le {table : List CaseRun} {p q a b : Nat}
    (htable : table.all (fun r => 0x80 ≤ r.target || (r.first == r.last &&
      ((r.first == p && r.target == a) || (r.first == q && r.target == b)))) = true)
    {n : Nat} (h : 0x80 ≤ n) :
    0x80 ≤ apply table n ∨ (n = p ∧ apply table n = a) ∨ (n = q ∧ apply table n = b) := by
  rcases apply_eq table n with hn | ⟨r, hr, hold, hn⟩
  · exact .inl (by rw [hn]; exact h)
  · have ha := List.all_eq_true.mp htable r hr
    simp only [holds, Bool.and_eq_true, decide_eq_true_eq, beq_iff_eq] at hold
    simp only [Bool.or_eq_true, Bool.and_eq_true, decide_eq_true_eq, beq_iff_eq] at ha
    rw [hn, map]
    omega

end CaseRun

/-! ### Single characters -/

theorem lowerPoint_of_lt {n : Nat} (h : n < 0x80) :
    lowerPoint n = if 0x41 ≤ n ∧ n ≤ 0x5A then n + 0x20 else n := by
  rw [lowerPoint, if_pos h]
  simp

/-- The lower-case form of a letter outside ASCII is outside ASCII, or one of two letters. -/
theorem lowerPoint_of_le {n : Nat} (h : 0x80 ≤ n) :
    0x80 ≤ lowerPoint n ∨ (n = 0x130 ∧ lowerPoint n = 0x69) ∨
      (n = 0x212A ∧ lowerPoint n = 0x6B) := by
  rw [lowerPoint, if_neg (Nat.not_lt.mpr h)]
  exact CaseRun.apply_of_le CaseRun.lowerTable_ascii h

/-- So is the upper-case form. -/
theorem upperPoint_of_le {n : Nat} (h : 0x80 ≤ n) :
    0x80 ≤ upperPoint n ∨ (n = 0x131 ∧ upperPoint n = 0x49) ∨
      (n = 0x17F ∧ upperPoint n = 0x53) := by
  rw [upperPoint, if_neg (Nat.not_lt.mpr h)]
  exact CaseRun.apply_of_le CaseRun.upperTable_ascii h

theorem lowerPoint_lowerPoint (n : Nat) : lowerPoint (lowerPoint n) = lowerPoint n := by
  by_cases h : n < 0x80
  · rw [lowerPoint_of_lt h]
    split
    · rw [lowerPoint_of_lt (by omega), if_neg (by omega)]
    · rw [lowerPoint_of_lt h, if_neg ‹_›]
  · rcases lowerPoint_of_le (Nat.not_lt.mp h) with hn | hn
    · -- The image is outside ASCII, and no run of the table goes on from there.
      rw [lowerPoint, if_neg (Nat.not_lt.mpr hn)]
      rw [lowerPoint, if_neg h]
      rcases CaseRun.apply_eq CaseRun.lowerTable n with ha | ⟨r, hr, hold, ha⟩
      · rw [ha, ha]
      · rw [ha]
        rcases CaseRun.apply_eq CaseRun.lowerTable (r.map n) with hb | ⟨s, hs, hold', -⟩
        · exact hb
        · have hm := List.all_eq_true.mp
            (List.all_eq_true.mp CaseRun.lowerTable_missesRun r hr) s hs
          rw [CaseRun.not_holds_map hold hm] at hold'
          cases hold'
    · rcases hn with ⟨-, hn⟩ | ⟨-, hn⟩ <;> rw [hn] <;> rfl

theorem lowerChar_lowerChar (c : Char) : lowerChar (lowerChar c) = lowerChar c := by
  unfold lowerChar
  rw [Char.toNat_ofNat]
  split
  · rw [lowerPoint_lowerPoint]
  · rename_i h
    rw [Char.ofNat, Char.ofNat, dif_neg h]
    rfl

/-- A byte of ASCII in lower case. -/
def lowerByte (b : UInt8) : UInt8 := if isUpperLetter b then b + 0x20 else b

theorem isUpperLetter_iff (b : UInt8) : isUpperLetter b = true ↔ 0x41 ≤ b.toNat ∧ b.toNat ≤ 0x5A := by
  simp [isUpperLetter, UInt8.le_iff_toNat_le]

theorem lowerByte_of_not_upper {b : UInt8} (h : isUpperLetter b = false) : lowerByte b = b := by
  simp [lowerByte, h]

theorem toNat_lowerByte {b : UInt8} (h : b < 0x80) : (lowerByte b).toNat = lowerPoint b.toNat := by
  rw [lowerPoint_of_lt (n := b.toNat) h, lowerByte]
  by_cases hu : isUpperLetter b = true
  · have hb := (isUpperLetter_iff b).mp hu
    rw [if_pos hu, if_pos hb, UInt8.toNat_add]
    change (b.toNat + 32) % 256 = b.toNat + 32
    omega
  · rw [if_neg hu, if_neg ((isUpperLetter_iff b).not.mp hu)]

theorem lowerByte_lt {b : UInt8} (h : b < 0x80) : lowerByte b < 0x80 := by
  rw [UInt8.lt_iff_toNat_lt, toNat_lowerByte h, lowerPoint_of_lt (n := b.toNat) h]
  have hb : b.toNat < 128 := h
  change _ < 128
  split <;> omega

theorem toNat_ofNat_ascii {b : UInt8} (h : b < 0x80) : (Char.ofNat b.toNat).toNat = b.toNat := by
  have hb : b.toNat < 128 := h
  rw [Char.toNat_ofNat, if_pos (Or.inl (by omega))]

theorem encode_lowerChar_ascii {b : UInt8} (h : b < 0x80) :
    String.utf8EncodeChar (lowerChar (Char.ofNat b.toNat)) = [lowerByte b] := by
  rw [lowerChar, toNat_ofNat_ascii h, ← toNat_lowerByte h, encode_ascii (lowerByte_lt h)]

/-! ### Whole texts -/

/-- A text in lower case stays as it is. -/
theorem eq_nil_of_lower {s : Text} (h : s.lower = []) : s = [] := by
  have hchars : s.lower.chars = s.chars.map lowerChar := chars_ofChars _
  rw [h] at hchars
  have hglyphs : s.glyphs = [] := List.map_eq_nil_iff.mp (List.map_eq_nil_iff.mp hchars.symm)
  rw [← ofGlyphs_glyphs s, hglyphs]
  rfl

@[simp] theorem lower_lower (s : Text) : s.lower.lower = s.lower := by
  rw [lower, lower, chars_ofChars, List.map_map]
  congr 1
  exact List.map_congr_left fun c _ => lowerChar_lowerChar c

theorem lower_append_ascii {b : UInt8} (h : b < 0x80) (s t : Text) :
    Text.lower (s ++ b :: t) = s.lower ++ lowerByte b :: t.lower := by
  simp only [lower, chars_append_ascii h, List.map_append, List.map_cons, ofChars_append,
    ofChars_cons, encode_lowerChar_ascii h]
  rfl

theorem lower_cons_ascii {b : UInt8} (h : b < 0x80) (t : Text) :
    Text.lower (b :: t) = lowerByte b :: t.lower := lower_append_ascii h [] t

theorem lower_of_ascii {s : Text} (h : ∀ b ∈ s, b < 0x80) : s.lower = s.map lowerByte := by
  induction s with
  | nil => rfl
  | cons b s ih =>
      rw [lower_cons_ascii (h b List.mem_cons_self),
        ih fun a ha => h a (List.mem_cons_of_mem b ha), List.map_cons]

/-- May a byte divide texts? It is of ASCII, and neither a letter nor zero. -/
def isDivider (b : UInt8) : Bool := b != 0 && b < 0x80 && !isLetter b

theorem isDivider_iff (b : UInt8) :
    isDivider b = true ↔ b ≠ 0 ∧ b < 0x80 ∧ isUpperLetter b = false ∧ isLowerLetter b = false := by
  simp [isDivider, isLetter, and_assoc]

theorem isLowerLetter_iff (b : UInt8) : isLowerLetter b = true ↔ 0x61 ≤ b.toNat ∧ b.toNat ≤ 0x7A := by
  simp [isLowerLetter, UInt8.le_iff_toNat_le]

theorem lower_append_divider {b : UInt8} (h : isDivider b = true) (s t : Text) :
    Text.lower (s ++ b :: t) = s.lower ++ b :: t.lower := by
  obtain ⟨-, hlt, hu, -⟩ := (isDivider_iff b).mp h
  rw [lower_append_ascii hlt, lowerByte_of_not_upper hu]

/-! ### Bytes of ASCII in a text -/

/-- A change of characters that makes a byte of nothing else brings it into no text. -/
theorem mem_of_mem_mapped {f : Nat → Nat} {b : UInt8} (hlt : b < 0x80) (hzero : b ≠ 0)
    (hf : ∀ n, f n = b.toNat → n = b.toNat) {s : Text}
    (h : b ∈ ofChars (s.chars.map fun c => Char.ofNat (f c.toNat))) : b ∈ s := by
  obtain ⟨c', hc', hmem⟩ := List.mem_flatMap.mp h
  obtain ⟨c, hc, rfl⟩ := List.mem_map.mp hc'
  have himage := Glyph.toNat_of_mem_encode hlt hmem
  rw [Char.toNat_ofNat] at himage
  split at himage
  · have hpoint := hf _ himage
    have hbyte := mem_of_mem_chars (by rw [hpoint]; exact hlt) hc
    rwa [hpoint, UInt8.ofNat_toNat] at hbyte
  · exact absurd (UInt8.toNat_inj.mp himage.symm) hzero

/-- Lower case makes no dividing byte of anything else. -/
theorem mem_of_mem_lower {b : UInt8} (hb : isDivider b = true) {s : Text} (h : b ∈ s.lower) :
    b ∈ s := by
  obtain ⟨hzero, hlt, hupper, hlower⟩ := (isDivider_iff b).mp hb
  have hupper := (isUpperLetter_iff b).not.mp (Bool.eq_false_iff.mp hupper)
  have hlower := (isLowerLetter_iff b).not.mp (Bool.eq_false_iff.mp hlower)
  refine mem_of_mem_mapped hlt hzero (fun n hn => ?_) h
  have hlt : b.toNat < 128 := hlt
  by_cases hascii : n < 0x80
  · rw [lowerPoint_of_lt hascii] at hn
    split at hn <;> omega
  · rcases lowerPoint_of_le (Nat.not_lt.mp hascii) with h1 | h1 | h1 <;> omega

/-- Upper case makes none either. -/
theorem mem_of_mem_upper {b : UInt8} (hb : isDivider b = true) {s : Text} (h : b ∈ s.upper) :
    b ∈ s := by
  obtain ⟨hzero, hlt, hupper, hlower⟩ := (isDivider_iff b).mp hb
  have hupper := (isUpperLetter_iff b).not.mp (Bool.eq_false_iff.mp hupper)
  have hlower := (isLowerLetter_iff b).not.mp (Bool.eq_false_iff.mp hlower)
  refine mem_of_mem_mapped hlt hzero (fun n hn => ?_) h
  have hlt : b.toNat < 128 := hlt
  by_cases hascii : n < 0x80
  · rw [upperPoint, if_pos hascii] at hn
    split at hn
    · rename_i hletter
      simp only [Bool.and_eq_true, decide_eq_true_eq] at hletter
      omega
    · exact hn
  · rcases upperPoint_of_le (Nat.not_lt.mp hascii) with h1 | h1 | h1 <;> omega

theorem lower_split {b : UInt8} (hb : isDivider b = true) (s : Text) :
    split b s.lower = (split b s).map lower := by
  induction hn : s.length using Nat.strong_induction_on generalizing s with
  | _ n ih =>
      by_cases h : b ∈ s
      · obtain ⟨p, t, rfl⟩ := List.append_of_mem h
        rw [List.length_append, List.length_cons] at hn
        rw [lower_append_divider hb, split_append_sep, split_append_sep, List.map_append,
          ih p.length (by omega) p rfl, ih t.length (by omega) t rfl]
      · have hl : b ∉ s.lower := fun hl => h (mem_of_mem_lower hb hl)
        rw [split_eq_singleton h, split_eq_singleton hl, List.map_singleton]

theorem lower_join {b : UInt8} (hb : isDivider b = true) (ws : List Text) :
    lower (join [b] ws) = join [b] (ws.map lower) := by
  induction ws with
  | nil => rfl
  | cons w ws ih =>
      cases ws with
      | nil => rfl
      | cons v vs =>
          rw [join_cons_cons, List.append_assoc, List.singleton_append, lower_append_divider hb, ih]
          simp [join_cons_cons]

theorem lower_of_mem_split {b : UInt8} (hb : isDivider b = true) {s w : Text} (hs : s.lower = s)
    (h : w ∈ split b s) : w.lower = w := by
  rw [← hs, lower_split hb] at h
  obtain ⟨v, -, rfl⟩ := List.mem_map.mp h
  exact lower_lower v

/-! ### Equality without regard to case -/

/-- The characters that are compared as a character of ASCII: those that have it as their lower-case
form, and the long s. -/
theorem lowerPoint_of_foldPoint {n a : Nat} (ha : a < 0x80) (h : foldPoint n = a) :
    lowerPoint n = a ∨ n = 0x17F := by
  rw [foldPoint] at h
  split at h
  · omega
  · rename_i hn
    by_cases hascii : n < 0x80
    · rw [upperPoint, if_pos hascii] at h
      split at h
      · rename_i hl
        simp only [Bool.and_eq_true, decide_eq_true_eq] at hl
        rw [lowerPoint_of_lt (by omega), if_pos (by omega)] at h
        rw [lowerPoint_of_lt hascii, if_neg (by omega)]
        omega
      · exact .inl h
    · rw [upperPoint, if_neg hascii] at h
      rcases CaseRun.apply_eq CaseRun.upperTable n with hu | ⟨r, hr, hold, hu⟩
      · rw [hu] at h
        exact .inl h
      · -- The upper-case form is outside ASCII and has no form in ASCII, or the letter is a long s.
        have hu' := List.all_eq_true.mp CaseRun.upperTable_ascii r hr
        have hv := List.all_eq_true.mp CaseRun.upperTable_avoids r hr
        simp only [CaseRun.holds, Bool.and_eq_true, decide_eq_true_eq, beq_iff_eq] at hold
        simp only [Bool.or_eq_true, Bool.and_eq_true, decide_eq_true_eq, beq_iff_eq] at hu'
        simp only [CaseRun.avoids, Bool.or_eq_true, Bool.and_eq_true, decide_eq_true_eq] at hv
        rw [hu, CaseRun.map] at h
        rcases hu' with ht | ⟨hone, hfirst⟩
        · have himage : 0x80 ≤ r.target + (n - r.first) := Nat.le_add_right_of_le ht
          rcases lowerPoint_of_le himage with h1 | h1 | h1 <;> omega
        · omega

theorem foldPoint_of_not_upper {n : Nat} (h : n < 0x80) (hu : ¬(0x41 ≤ n ∧ n ≤ 0x5A)) :
    foldPoint n = n := by
  rw [foldPoint, if_neg (by omega), upperPoint, if_pos h]
  split
  · rename_i hl
    simp only [Bool.and_eq_true, decide_eq_true_eq] at hl
    rw [lowerPoint_of_lt (by omega), if_pos (by omega)]
    omega
  · rw [lowerPoint_of_lt h, if_neg hu]

/-- Is a text in ASCII without capitals? -/
def isPlainLower (s : Text) : Bool := s.all fun b => b < 0x80 && !isUpperLetter b

theorem chars_of_ascii {s : Text} (h : ∀ b ∈ s, b < 0x80) :
    s.chars = s.map fun b => Char.ofNat b.toNat := by
  induction s with
  | nil => rfl
  | cons b s ih =>
      have hs := ih fun a ha => h a (List.mem_cons_of_mem b ha)
      have hc := chars_append_ascii (h b List.mem_cons_self) [] s
      rw [List.nil_append] at hc
      rw [hc, hs]
      rfl

theorem isPlainLower_iff (s : Text) :
    isPlainLower s = true ↔ ∀ b ∈ s, b < 0x80 ∧ isUpperLetter b = false := by
  simp [isPlainLower]

theorem ascii_of_isPlainLower {s : Text} (h : isPlainLower s = true) : ∀ b ∈ s, b < 0x80 :=
  fun b hb => ((isPlainLower_iff s).mp h b hb).1

theorem lower_of_isPlainLower {s : Text} (h : isPlainLower s = true) : s.lower = s := by
  rw [lower_of_ascii (ascii_of_isPlainLower h)]
  refine (List.map_congr_left fun b hb => ?_).trans (List.map_id s)
  exact lowerByte_of_not_upper ((isPlainLower_iff s).mp h b hb).2

theorem isPlainLower_lower {s : Text} (h : ∀ b ∈ s, b < 0x80) : isPlainLower s.lower = true := by
  rw [isPlainLower_iff, lower_of_ascii h]
  intro b hb
  obtain ⟨a, ha, rfl⟩ := List.mem_map.mp hb
  refine ⟨lowerByte_lt (h a ha), ?_⟩
  rw [Bool.eq_false_iff, ne_eq, isUpperLetter_iff, toNat_lowerByte (h a ha),
    lowerPoint_of_lt (n := a.toNat) (h a ha)]
  split <;> omega

theorem map_eq_map_of_agree {α β γ : Type} {f : α → β} {g : α → γ} {xs ys : List α}
    (h : xs.map f = ys.map f) (hg : ∀ x ∈ xs, ∀ y ∈ ys, f x = f y → g x = g y) :
    xs.map g = ys.map g := by
  induction xs generalizing ys with
  | nil =>
      obtain rfl := List.map_eq_nil_iff.mp h.symm
      rfl
  | cons x xs ih =>
      cases ys with
      | nil => cases h
      | cons y ys =>
          rw [List.map_cons, List.map_cons, List.cons.injEq] at h
          rw [List.map_cons, List.map_cons, hg x List.mem_cons_self y List.mem_cons_self h.1,
            ih h.2 fun a ha b hb => hg a (List.mem_cons_of_mem x ha) b (List.mem_cons_of_mem y hb)]

/-- A text in lower case that has the letters of a plain word is the word, unless the word has an s
and the text may have a long one. -/
theorem eq_of_sameLetters {s word : Text} (hs : s.lower = s) (hw : isPlainLower word = true)
    (hlong : 0x73 ∉ word ∨ ∀ b ∈ s, b < 0x80) (h : sameLetters s word = true) : s = word := by
  have hfold : s.chars.map (fun c => foldPoint c.toNat) =
      word.chars.map fun c => foldPoint c.toNat := by simpa [sameLetters] using h
  rw [← hs, ← lower_of_isPlainLower hw, lower, lower]
  congr 1
  refine map_eq_map_of_agree hfold fun c hc d hd hcd => ?_
  rw [chars_of_ascii (ascii_of_isPlainLower hw)] at hd
  obtain ⟨b, hb, rfl⟩ := List.mem_map.mp hd
  obtain ⟨hlt, hup⟩ := (isPlainLower_iff word).mp hw b hb
  have hup := (isUpperLetter_iff b).not.mp (Bool.eq_false_iff.mp hup)
  rw [toNat_ofNat_ascii hlt, foldPoint_of_not_upper (n := b.toNat) hlt hup] at hcd
  rcases lowerPoint_of_foldPoint (a := b.toNat) hlt hcd with hl | hl
  · rw [lowerChar, lowerChar, hl, toNat_ofNat_ascii hlt, lowerPoint_of_lt (n := b.toNat) hlt,
      if_neg hup]
  · exfalso
    rcases hlong with hlong | hlong
    · rw [hl] at hcd
      have hb73 : b = 0x73 := UInt8.toNat_inj.mp (hcd.symm.trans (by decide))
      exact hlong (hb73 ▸ hb)
    · rw [chars_of_ascii hlong] at hc
      obtain ⟨a, ha, rfl⟩ := List.mem_map.mp hc
      have ha' : a.toNat < 128 := hlong a ha
      rw [toNat_ofNat_ascii (hlong a ha)] at hl
      omega

end ServiceKit.Text
