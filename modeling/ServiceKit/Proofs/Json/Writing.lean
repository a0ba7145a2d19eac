import Mathlib
import ServiceKit.Json.Writer
import ServiceKit.Proofs.Json.Values

/-!
What is written is a value of the grammar that denotes what was written, up to stray bytes, and stands
on one line of UTF-8.
-/

namespace ServiceKit

/-! ### Hexadecimal digits -/

namespace Number

theorem hexValue?_digit {d : Nat} (h : d < 16) : hexValue? (digit d) = some d := by
  revert d
  decide

theorem digitsUpTo_of_lt {base n : Nat} (fuel : Nat) (h : n < base) :
    digitsUpTo base fuel n = [digit n] := by
  cases fuel with
  | zero => rw [digitsUpTo, Nat.mod_eq_of_lt h]
  | succ fuel => rw [digitsUpTo, if_pos h]

theorem digitsUpTo_of_le {base n : Nat} (fuel : Nat) (h : base ≤ n) :
    digitsUpTo base (fuel + 1) n = digitsUpTo base fuel (n / base) ++ [digit (n % base)] := by
  rw [digitsUpTo, if_neg (Nat.not_lt.mpr h)]

/-- Four hexadecimal digits of a number below 65536. -/
theorem padded_hexadecimal {n : Nat} (h : n < 0x10000) :
    padded 4 (hexadecimal n) =
      [digit (n / 16 / 16 / 16), digit (n / 16 / 16 % 16), digit (n / 16 % 16), digit (n % 16)] := by
  have hzero : digit 0 = 0x30 := by decide
  unfold hexadecimal
  by_cases h1 : n < 16
  · rw [digitsUpTo_of_lt n h1]
    simp [padded, Nat.div_eq_of_lt h1, Nat.mod_eq_of_lt h1, hzero]
  -- at least sixteen steps are left, and no more than three are taken
  obtain ⟨k, hk⟩ : ∃ k, n = k + 3 := ⟨n - 3, by omega⟩
  rw [show digitsUpTo 16 n n = digitsUpTo 16 (k + 3) n by rw [← hk], digitsUpTo_of_le _ (by omega)]
  by_cases h2 : n / 16 < 16
  · rw [digitsUpTo_of_lt _ h2]
    simp [padded, Nat.div_eq_of_lt h2, Nat.mod_eq_of_lt h2, hzero]
  rw [digitsUpTo_of_le _ (by omega)]
  by_cases h3 : n / 16 / 16 < 16
  · rw [digitsUpTo_of_lt _ h3]
    simp [padded, Nat.div_eq_of_lt h3, Nat.mod_eq_of_lt h3, hzero]
  rw [digitsUpTo_of_le _ (by omega), digitsUpTo_of_lt _ (by omega)]
  simp [padded]

end Number

namespace Json

/-! ### Strings -/

theorem shortEscape?_some {n : Nat} {l : UInt8} (h : shortEscape? n = some l) :
    ∃ b : UInt8, (l, b) ∈ letterEscapes ∧ b < 0x80 ∧ n = b.toNat := by
  unfold shortEscape? at h
  split at h
  all_goals cases h
  · exact ⟨0x08, by decide⟩
  · exact ⟨0x09, by decide⟩
  · exact ⟨0x0A, by decide⟩
  · exact ⟨0x0C, by decide⟩
  · exact ⟨0x0D, by decide⟩
  · exact ⟨0x22, by decide⟩
  · exact ⟨0x5C, by decide⟩

theorem shortEscape?_none {n : Nat} (h : shortEscape? n = none) : n ≠ 0x22 ∧ n ≠ 0x5C := by
  constructor
  · rintro rfl
    cases h
  · rintro rfl
    cases h

theorem StringStyle.lt_of_escapes {style : StringStyle} {n : Nat} (h : style.escapes n = true) :
    n < 0x10000 := by
  cases style <;> simp [escapes] at h <;> omega

theorem StringStyle.le_of_not_escapes {style : StringStyle} {n : Nat}
    (h : ¬style.escapes n = true) : 0x20 ≤ n := by
  simp only [escapes, Bool.or_eq_true, decide_eq_true_eq, not_or] at h
  exact Nat.le_of_not_lt h.1

/-- A glyph is written as a letter after a backslash, as a number, or as it is. -/
theorem StringStyle.escape_cases (style : StringStyle) (g : Glyph) :
    (∃ l b, style.escape g = [0x5C, l] ∧ (l, b) ∈ letterEscapes ∧
        String.utf8EncodeChar g.shown = [b]) ∨
      (style.escape g = Text.hexEscape 0x75 4 g.shown.toNat ∧ g.shown.toNat < 0x10000) ∨
      (style.escape g = String.utf8EncodeChar g.shown ∧ 0x20 ≤ g.shown.toNat ∧
        g.shown.toNat ≠ 0x22 ∧ g.shown.toNat ≠ 0x5C ∧ ¬style.escapes g.shown.toNat = true) := by
  cases g with
  | stray b =>
      have htext : utf8 "\\ufffd" = Text.hexEscape 0x75 4 Glyph.replacement.toNat := by decide
      have hlt : Glyph.replacement.toNat < 0x10000 := by decide
      exact .inr (.inl ⟨htext, hlt⟩)
  | char c =>
      change (∃ l b, style.escapeChar c = _ ∧ _) ∨ (style.escapeChar c = _ ∧ _) ∨
        (style.escapeChar c = _ ∧ _)
      unfold escapeChar
      cases hshort : shortEscape? c.toNat with
      | some l =>
          obtain ⟨b, hb, hascii, hc⟩ := shortEscape?_some hshort
          refine .inl ⟨l, b, rfl, hb, ?_⟩
          rw [Glyph.shown, ← Char.ofNat_toNat c, hc, Text.encode_ascii hascii]
      | none =>
          simp only
          split
          · rename_i hescapes
            exact .inr (.inl ⟨rfl, lt_of_escapes hescapes⟩)
          · rename_i hescapes
            obtain ⟨hquote, hslash⟩ := shortEscape?_none hshort
            exact .inr (.inr ⟨rfl, le_of_not_escapes hescapes, hquote, hslash, hescapes⟩)

theorem isBody_bytes {t s : Text} {ps : List Piece} (ht : ∀ b ∈ t, 0x20 ≤ b ∧ b ≠ 0x22 ∧ b ≠ 0x5C)
    (hs : IsBody s ps) : IsBody (t ++ s) (t.map .byte ++ ps) := by
  induction t with
  | nil => exact hs
  | cons b t ih =>
      obtain ⟨⟨hlow, hquote, hslash⟩, ht⟩ := List.forall_mem_cons.mp ht
      exact .byte hlow hquote hslash (ih ht)

theorem joinPieces_bytes (t : Text) (ps : List Piece) :
    joinPieces (t.map .byte ++ ps) = t ++ joinPieces ps := by
  induction t with
  | nil => rfl
  | cons b t ih => rw [List.map_cons, List.cons_append, joinPieces, ih, List.cons_append]

/-- The number of a character is never half of a pair. -/
theorem joinPieces_unit (c : Char) (ps : List Piece) :
    joinPieces (.unit c.toNat :: ps) = String.utf8EncodeChar c ++ joinPieces ps := by
  have hpoint : c.toNat < 0xD800 ∨ 0xDFFF < c.toNat := by
    rcases c.valid with h | h
    · exact .inl h
    · exact .inr h.1
  have hhigh : isHighSurrogate c.toNat = false := by
    simp only [isHighSurrogate, Bool.and_eq_false_iff, decide_eq_false_iff_not]
    omega
  have hlow : isLowSurrogate c.toNat = false := by
    simp only [isLowSurrogate, Bool.and_eq_false_iff, decide_eq_false_iff_not]
    omega
  have hchar : unitChar c.toNat = c := by
    simp [unitChar, hhigh, hlow]
  rcases ps with _ | ⟨_ | v, ps⟩ <;> simp [joinPieces, hhigh, hchar]

theorem le_of_mem_encode {c : Char} (hlow : 0x20 ≤ c.toNat) (hquote : c.toNat ≠ 0x22)
    (hslash : c.toNat ≠ 0x5C) {b : UInt8} (hb : b ∈ String.utf8EncodeChar c) :
    0x20 ≤ b ∧ b ≠ 0x22 ∧ b ≠ 0x5C := by
  by_cases hascii : b < 0x80
  · have hc := Glyph.toNat_of_mem_encode hascii hb
    refine ⟨?_, ?_, ?_⟩
    · rw [UInt8.le_iff_toNat_le, ← hc]
      exact hlow
    · rintro rfl
      exact hquote hc
    · rintro rfl
      exact hslash hc
  · have hhigh : (0x80 : UInt8) ≤ b := UInt8.not_lt.mp hascii
    refine ⟨UInt8.le_trans (by decide) hhigh, ?_, ?_⟩
    · rintro rfl
      exact absurd hhigh (by decide)
    · rintro rfl
      exact absurd hhigh (by decide)

theorem isBody_hexEscape {n : Nat} (hn : n < 0x10000) {s : Text} {ps : List Piece} (hs : IsBody s ps) :
    IsBody (Text.hexEscape 0x75 4 n ++ s) (.unit n :: ps) := by
  have hdigits := IsBody.unit (Number.hexValue?_digit (d := n / 16 / 16 / 16) (by omega))
    (Number.hexValue?_digit (d := n / 16 / 16 % 16) (by omega))
    (Number.hexValue?_digit (d := n / 16 % 16) (by omega))
    (Number.hexValue?_digit (d := n % 16) (by omega)) hs
  have hvalue : ((n / 16 / 16 / 16 * 16 + n / 16 / 16 % 16) * 16 + n / 16 % 16) * 16 + n % 16 = n := by
    omega
  rw [Text.hexEscape, Number.padded_hexadecimal hn]
  rwa [hvalue] at hdigits

/-- What is written for a glyph may stand in a string, and stands there for the glyph's character. -/
theorem StringStyle.isBody_escape (style : StringStyle) (g : Glyph) {s : Text} {ps : List Piece}
    (hs : IsBody s ps) :
    ∃ qs, IsBody (style.escape g ++ s) qs ∧
      joinPieces qs = String.utf8EncodeChar g.shown ++ joinPieces ps := by
  rcases style.escape_cases g with ⟨l, b, he, hl, hb⟩ | ⟨he, hlt⟩ | ⟨he, hlow, hquote, hslash, -⟩
  · refine ⟨.byte b :: ps, ?_, ?_⟩
    · rw [he]
      exact .letter hl hs
    · rw [joinPieces, hb, List.singleton_append]
  · refine ⟨.unit g.shown.toNat :: ps, ?_, joinPieces_unit g.shown ps⟩
    rw [he]
    exact isBody_hexEscape hlt hs
  · refine ⟨(String.utf8EncodeChar g.shown).map .byte ++ ps, ?_, joinPieces_bytes _ _⟩
    rw [he]
    exact isBody_bytes (fun b hb => le_of_mem_encode hlow hquote hslash hb) hs

/-- A text between quotes is a string that denotes it, with U+FFFD for stray bytes. -/
theorem StringStyle.exists_isBody (style : StringStyle) (s : Text) :
    ∃ ps, IsBody (s.glyphs.flatMap style.escape) ps ∧ bodyText ps = s.sanitize := by
  have hglyphs (gs : List Glyph) : ∃ ps, IsBody (gs.flatMap style.escape) ps ∧
      joinPieces ps = Text.ofChars (gs.map Glyph.shown) := by
    induction gs with
    | nil => exact ⟨[], .nil, rfl⟩
    | cons g gs ih =>
        obtain ⟨ps, hps, hjoin⟩ := ih
        obtain ⟨qs, hqs, hjoin'⟩ := style.isBody_escape g hps
        exact ⟨qs, hqs, by rw [hjoin', hjoin, List.map_cons, Text.ofChars_cons]⟩
  obtain ⟨ps, hps, hjoin⟩ := hglyphs s.glyphs
  exact ⟨ps, hps, by rw [bodyText, hjoin]; exact s.sanitize_sanitize⟩

/-! ### Values -/

section Values

variable {ν : Type} {style : StringStyle} {num : ν → Text} {lit : ν → Literal}

/-- A text is what is written for a value, whatever follows, and denotes the value. -/
def IsWritten (style : StringStyle) (num : ν → Text) (lit : ν → Literal) (t : Text) (x : Json ν) :
    Prop :=
  (∀ rest, writeBefore style num x rest = t ++ rest) ∧ IsValue t (x.rendered lit)

/-- The elements after the first one. -/
theorem exists_elementsBefore {xs : List (Json ν)}
    (h : ∀ x ∈ xs, ∃ t, IsWritten style num lit t x) :
    ∃ t, (∀ rest, elementsBefore style num xs rest = t ++ 0x5D :: rest) ∧
      ∀ s y, IsDocument s y → IsElements (s ++ t) (y :: renderedElements lit xs) := by
  induction xs with
  | nil =>
      refine ⟨[], fun rest => rfl, fun s y hs => ?_⟩
      rw [List.append_nil]
      exact .last hs
  | cons x xs ih =>
      obtain ⟨⟨t, ht, hvalue⟩, hxs⟩ := List.forall_mem_cons.mp h
      obtain ⟨u, hu, helements⟩ := ih hxs
      refine ⟨0x2C :: (t ++ u), fun rest => ?_, fun s y hs => ?_⟩
      · rw [elementsBefore, ht, hu, List.cons_append, List.append_assoc]
      · exact .cons hs (helements t _ hvalue.isDocument)

theorem StringStyle.isMember_write (style : StringStyle) (k : Text) {s : Text} {x : Json Literal}
    (hs : IsDocument s x) : IsMember (style.write k ++ 0x3A :: s) (k.sanitize, x) := by
  obtain ⟨ps, hps, htext⟩ := style.exists_isBody k
  have hmember := IsMember.mk blanks_nil hps blanks_nil hs
  rw [htext] at hmember
  simpa [write] using hmember

/-- The members after the first one. -/
theorem exists_membersBefore {ms : List (Text × Json ν)}
    (h : ∀ m ∈ ms, ∃ t, IsWritten style num lit t m.2) :
    ∃ t, (∀ rest, membersBefore style num ms rest = t ++ 0x7D :: rest) ∧
      ∀ s m, IsMember s m → IsMembers (s ++ t) (m :: renderedMembers lit ms) := by
  induction ms with
  | nil =>
      refine ⟨[], fun rest => rfl, fun s m hs => ?_⟩
      rw [List.append_nil]
      exact .last hs
  | cons m ms ih =>
      obtain ⟨⟨t, ht, hvalue⟩, hms⟩ := List.forall_mem_cons.mp h
      obtain ⟨u, hu, hmembers⟩ := ih hms
      refine ⟨0x2C :: (style.write m.1 ++ 0x3A :: t ++ u), fun rest => ?_, fun s m' hs => ?_⟩
      · rw [membersBefore, ht, hu]
        simp
      · exact .cons hs (hmembers _ _ (style.isMember_write m.1 hvalue.isDocument))

/-- What is written for a value denotes the value, with U+FFFD for stray bytes, if what is written for
its numbers are literals. -/
theorem exists_isWritten (style : StringStyle) {x : Json ν}
    (h : ∀ n ∈ x.numbers, (lit n).WellFormed ∧ num n = (lit n).text) :
    ∃ t, IsWritten style num lit t x := by
  induction x using induct with
  | null => exact ⟨_, fun rest => rfl, .nullWord⟩
  | bool b =>
      cases b with
      | true => exact ⟨_, fun rest => rfl, .trueWord⟩
      | false => exact ⟨_, fun rest => rfl, .falseWord⟩
  | number n =>
      obtain ⟨hform, htext⟩ := h n (List.mem_singleton.mpr rfl)
      refine ⟨num n, fun rest => rfl, ?_⟩
      rw [htext]
      exact .number hform
  | string s =>
      obtain ⟨ps, hps, htext⟩ := style.exists_isBody s
      have hvalue := IsValue.string hps
      rw [htext] at hvalue
      exact ⟨style.write s, fun rest => rfl, hvalue⟩
  | array xs ih =>
      rw [numbers, elementsNumbers_eq] at h
      have hall : ∀ x ∈ xs, ∃ t, IsWritten style num lit t x := fun x hx =>
        ih x hx fun n hn => h n (List.mem_flatMap.mpr ⟨x, hx, hn⟩)
      cases xs with
      | nil => exact ⟨[0x5B, 0x5D], fun rest => rfl, .noElements blanks_nil⟩
      | cons x xs =>
          obtain ⟨⟨t, ht, hvalue⟩, hxs⟩ := List.forall_mem_cons.mp hall
          obtain ⟨u, hu, helements⟩ := exists_elementsBefore hxs
          refine ⟨0x5B :: (t ++ u ++ [0x5D]), fun rest => ?_, .array (helements t _ hvalue.isDocument)⟩
          rw [writeBefore, ht, hu]
          simp
  | object ms ih =>
      rw [numbers, membersNumbers_eq] at h
      have hall : ∀ m ∈ ms, ∃ t, IsWritten style num lit t m.2 := fun m hm =>
        ih m hm fun n hn => h n (List.mem_flatMap.mpr ⟨m, hm, hn⟩)
      cases ms with
      | nil => exact ⟨[0x7B, 0x7D], fun rest => rfl, .noMembers blanks_nil⟩
      | cons m ms =>
          obtain ⟨⟨t, ht, hvalue⟩, hms⟩ := List.forall_mem_cons.mp hall
          obtain ⟨u, hu, hmembers⟩ := exists_membersBefore hms
          refine ⟨0x7B :: (style.write m.1 ++ 0x3A :: t ++ u ++ [0x7D]), fun rest => ?_,
            .object (hmembers _ _ (style.isMember_write m.1 hvalue.isDocument))⟩
          rw [writeBefore, ht, hu]
          simp

theorem isValue_write {x : Json ν}
    (h : ∀ n ∈ x.numbers, (lit n).WellFormed ∧ num n = (lit n).text) :
    IsValue (x.write style num) (x.rendered lit) := by
  obtain ⟨t, ht, hvalue⟩ := exists_isWritten style h
  rwa [write, ht, List.append_nil]

end Values

/-! ### One line -/

/-- A text of characters from the space on. -/
def IsLine (t : Text) : Prop := ∃ cs, t = Text.ofChars cs ∧ ∀ c ∈ cs, 0x20 ≤ c.toNat

theorem includesLatin_line : Text.IncludesLatin fun c => 0x20 ≤ c.toNat := by
  intro n hlow hhigh
  rw [Char.toNat_ofNat, if_pos (Or.inl (by omega))]
  exact hlow

theorem IsLine.append {s t : Text} (hs : IsLine s) (ht : IsLine t) : IsLine (s ++ t) :=
  Text.MadeOf.append hs ht

theorem isLine_ascii {t : Text} (h : ∀ b ∈ t, 0x20 ≤ b ∧ b < 0x80) : IsLine t :=
  Text.MadeOf.ascii includesLatin_line h

theorem isLine_of_all {t : Text} (h : (t.all fun b => 0x20 ≤ b && b < 0x80) = true) : IsLine t :=
  Text.MadeOf.of_all includesLatin_line h

theorem IsLine.le_of_mem {t : Text} (h : IsLine t) {b : UInt8} (hb : b ∈ t) : 0x20 ≤ b := by
  obtain ⟨cs, rfl, hcs⟩ := h
  obtain ⟨c, hc, hb⟩ := List.mem_flatMap.mp hb
  by_cases hascii : b < 0x80
  · have hpoint := Glyph.toNat_of_mem_encode hascii hb
    have hlow := hcs c hc
    rw [hpoint] at hlow
    exact hlow
  · exact UInt8.le_trans (by decide) (UInt8.not_lt.mp hascii)

theorem IsLine.not_mem {t : Text} (h : IsLine t) : 0x0A ∉ t :=
  fun hmem => absurd (h.le_of_mem hmem) (by decide)

theorem IsLine.isUtf8 {t : Text} (h : IsLine t) : Text.isUtf8 (t ++ [0x0A]) = true := by
  obtain ⟨cs, rfl, -⟩ := h
  have hbreak : Text.ofChars cs ++ [0x0A] = Text.ofChars (cs ++ ['\n']) := by
    rw [Text.ofChars_append]
    rfl
  rw [hbreak]
  exact Text.isUtf8_ofChars _

/-- What is written for a glyph is of a kind if the glyph's character is, where that is written as it
is. -/
theorem StringStyle.madeOf_escape {q : Char → Prop} (hq : Text.IncludesLatin q) (style : StringStyle)
    {g : Glyph} (hg : 0x20 ≤ g.shown.toNat → q g.shown) : Text.MadeOf q (style.escape g) := by
  rcases style.escape_cases g with ⟨l, b, he, hl, -⟩ | ⟨he, hlt⟩ | ⟨he, hlow, -⟩
  · have hletters : ∀ e ∈ letterEscapes, 0x20 ≤ e.1 ∧ e.1 < 0x80 := by simp [letterEscapes]
    rw [he]
    exact .ascii hq (List.forall_mem_cons.mpr
      ⟨by decide, List.forall_mem_singleton.mpr (hletters _ hl)⟩)
  · have hdigit : ∀ d < 16, 0x20 ≤ Number.digit d ∧ Number.digit d < 0x80 := by decide
    rw [he, Text.hexEscape, Number.padded_hexadecimal hlt]
    refine .ascii hq ?_
    simp only [List.forall_mem_cons]
    refine ⟨by decide, by decide, hdigit _ ?_, hdigit _ ?_, hdigit _ ?_, hdigit _ ?_,
      fun _ h => nomatch h⟩ <;> omega
  · rw [he]
    exact .char (hg hlow)

theorem StringStyle.madeOf_write {q : Char → Prop} (hq : Text.IncludesLatin q) (style : StringStyle)
    {s : Text} (hs : ∀ c ∈ s.chars, 0x20 ≤ c.toNat → q c) : Text.MadeOf q (style.write s) := by
  have hglyphs : Text.MadeOf q (s.glyphs.flatMap style.escape) := by
    apply Text.MadeOf.flatMap
    intro g hg
    exact style.madeOf_escape hq (hs g.shown (List.mem_map.mpr ⟨g, hg, rfl⟩))
  exact (hglyphs.mark hq (by decide)).append (.of_all hq (by decide))

theorem StringStyle.isLine_write (style : StringStyle) (s : Text) : IsLine (style.write s) :=
  style.madeOf_write includesLatin_line fun _ _ hlow => hlow

/-- The bytes that are written around strings and numbers. -/
def ownBytes : Text := utf8 "[]\x7b\x7d:,nultrefas"

/-- A property that texts keep when they are put together, and that the bytes around strings and numbers
have. -/
structure IsKept (P : Text → Prop) : Prop where
  nil : P []
  mark {b : UInt8} {t : Text} : b ∈ ownBytes → P t → P (b :: t)
  append {s t : Text} : P s → P t → P (s ++ t)

/-- A property that texts keep when they are put together. Characters of ASCII have it, but for the
controls and the backslash. -/
structure IsSpelling (P : Text → Prop) : Prop where
  nil : P []
  mark {b : UInt8} {t : Text} : 0x20 ≤ b ∧ b < 0x80 ∧ b ≠ 0x5C → P t → P (b :: t)
  append {s t : Text} : P s → P t → P (s ++ t)

section Lines

variable {ν : Type} {style : StringStyle} {num : ν → Text}

namespace IsKept

variable {P : Text → Prop}

theorem word (hP : IsKept P) {t : Text} (h : ∀ b ∈ t, b ∈ ownBytes) : P t := by
  induction t with
  | nil => exact hP.nil
  | cons b t ih =>
      obtain ⟨hb, ht⟩ := List.forall_mem_cons.mp h
      exact hP.mark hb (ih ht)

theorem elementsBefore (hP : IsKept P) {xs : List (Json ν)} {rest : Text}
    (h : ∀ x ∈ xs, ∀ t, P t → P (writeBefore style num x t)) (hrest : P rest) :
    P (elementsBefore style num xs rest) := by
  induction xs with
  | nil => exact hP.mark (by decide) hrest
  | cons x xs ih =>
      obtain ⟨hx, hxs⟩ := List.forall_mem_cons.mp h
      rw [Json.elementsBefore]
      exact hP.mark (by decide) (hx _ (ih hxs))

theorem membersBefore (hP : IsKept P) {ms : List (Text × Json ν)} {rest : Text}
    (h : ∀ m ∈ ms, P (style.write m.1) ∧ ∀ t, P t → P (writeBefore style num m.2 t)) (hrest : P rest) :
    P (membersBefore style num ms rest) := by
  induction ms with
  | nil => exact hP.mark (by decide) hrest
  | cons m ms ih =>
      obtain ⟨⟨hkey, hm⟩, hms⟩ := List.forall_mem_cons.mp h
      rw [Json.membersBefore]
      exact hP.mark (by decide) (hP.append hkey (hP.mark (by decide) (hm _ (ih hms))))

theorem writeBefore (hP : IsKept P) {x : Json ν} (htexts : ∀ t ∈ x.texts, P (style.write t))
    (hnumbers : ∀ n ∈ x.numbers, P (num n)) {rest : Text} (hrest : P rest) :
    P (writeBefore style num x rest) := by
  induction x using induct generalizing rest with
  | null => exact hP.append (hP.word (by decide +kernel)) hrest
  | bool b => cases b <;> exact hP.append (hP.word (by decide +kernel)) hrest
  | number n => exact hP.append (hnumbers n (List.mem_singleton.mpr rfl)) hrest
  | string s => exact hP.append (htexts s (List.mem_singleton.mpr rfl)) hrest
  | array xs ih =>
      rw [texts, elementsTexts_eq] at htexts
      rw [numbers, elementsNumbers_eq] at hnumbers
      have hall : ∀ x ∈ xs, ∀ t, P t → P (Json.writeBefore style num x t) := fun x hx t ht =>
        ih x hx (fun t ht => htexts t (List.mem_flatMap.mpr ⟨x, hx, ht⟩))
          (fun n hn => hnumbers n (List.mem_flatMap.mpr ⟨x, hx, hn⟩)) ht
      cases xs with
      | nil => exact hP.mark (by decide) (hP.mark (by decide) hrest)
      | cons x xs =>
          obtain ⟨hx, hxs⟩ := List.forall_mem_cons.mp hall
          rw [Json.writeBefore]
          exact hP.mark (by decide) (hx _ (hP.elementsBefore hxs hrest))
  | object ms ih =>
      rw [texts, membersTexts_eq] at htexts
      rw [numbers, membersNumbers_eq] at hnumbers
      have hall : ∀ m ∈ ms, P (style.write m.1) ∧ ∀ t, P t → P (Json.writeBefore style num m.2 t) := by
        intro m hm
        refine ⟨htexts m.1 (List.mem_flatMap.mpr ⟨m, hm, List.mem_cons_self⟩), fun t ht => ?_⟩
        exact ih m hm
          (fun t ht => htexts t (List.mem_flatMap.mpr ⟨m, hm, List.mem_cons_of_mem _ ht⟩))
          (fun n hn => hnumbers n (List.mem_flatMap.mpr ⟨m, hm, hn⟩)) ht
      cases ms with
      | nil => exact hP.mark (by decide) (hP.mark (by decide) hrest)
      | cons m ms =>
          obtain ⟨⟨hkey, hm⟩, hms⟩ := List.forall_mem_cons.mp hall
          rw [Json.writeBefore]
          exact hP.mark (by decide)
            (hP.append hkey (hP.mark (by decide) (hm _ (hP.membersBefore hms hrest))))

/-- What is written for a value has the property if its strings, its keys and its numbers have it. -/
theorem write (hP : IsKept P) {x : Json ν} (htexts : ∀ t ∈ x.texts, P (style.write t))
    (hnumbers : ∀ n ∈ x.numbers, P (num n)) : P (x.write style num) :=
  hP.writeBefore htexts hnumbers hP.nil

end IsKept

namespace IsSpelling

variable {P : Text → Prop}

theorem ascii (hP : IsSpelling P) {t : Text} (h : ∀ b ∈ t, 0x20 ≤ b ∧ b < 0x80 ∧ b ≠ 0x5C) : P t := by
  induction t with
  | nil => exact hP.nil
  | cons b t ih =>
      obtain ⟨hb, ht⟩ := List.forall_mem_cons.mp h
      exact hP.mark hb (ih ht)

theorem isKept (hP : IsSpelling P) : IsKept P where
  nil := hP.nil
  mark {b t} hb ht := by
    have hown : ∀ b ∈ ownBytes, 0x20 ≤ b ∧ b < 0x80 ∧ b ≠ 0x5C := by decide +kernel
    exact hP.mark (hown b hb) ht
  append := hP.append

end IsSpelling

theorem IsLine.mark {b : UInt8} (hb : 0x20 ≤ b ∧ b < 0x80) {t : Text} (ht : IsLine t) :
    IsLine (b :: t) :=
  Text.MadeOf.mark includesLatin_line hb ht

theorem isSpelling_madeOf {q : Char → Prop} (hq : Text.IncludesLatin q) :
    IsSpelling (Text.MadeOf q) where
  nil := .nil
  mark hb ht := ht.mark hq ⟨hb.1, hb.2.1⟩
  append := .append

/-- A value is written on one line if its numbers are. -/
theorem isLine_write {x : Json ν} (h : ∀ n ∈ x.numbers, IsLine (num n)) :
    IsLine (x.write style num) :=
  (isSpelling_madeOf includesLatin_line).isKept.write (fun t _ => style.isLine_write t) h

end Lines

end Json

end ServiceKit
