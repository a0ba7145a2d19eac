import Mathlib
import ServiceKit.Check.SnakeCase
import ServiceKit.Proofs.Text.Case

/-!
Names in lower case with underscores. Such a name has no capitals left, so it stays what it is, and a name
that had no underscores of its own can be read back from it: every underscore stands for the capital that
followed it.
-/

namespace ServiceKit.Text

/-! ### Capitals of ASCII -/

def IsCapital (c : Char) : Prop := 'A' ≤ c ∧ c ≤ 'Z'

def IsSmall (c : Char) : Prop := 'a' ≤ c ∧ c ≤ 'z'

instance (c : Char) : Decidable (IsCapital c) := inferInstanceAs (Decidable ('A' ≤ c ∧ c ≤ 'Z'))

instance (c : Char) : Decidable (IsSmall c) := inferInstanceAs (Decidable ('a' ≤ c ∧ c ≤ 'z'))

theorem isCapital_iff {c : Char} : IsCapital c ↔ 0x41 ≤ c.toNat ∧ c.toNat ≤ 0x5A := Iff.rfl

theorem isSmall_iff {c : Char} : IsSmall c ↔ 0x61 ≤ c.toNat ∧ c.toNat ≤ 0x7A := Iff.rfl

def smallOf (c : Char) : Char := Char.ofNat (c.toNat + 32)

/-- What is no small letter stays as it is. -/
def capitalOf (c : Char) : Char := if IsSmall c then Char.ofNat (c.toNat - 32) else c

theorem toNat_smallOf {c : Char} (h : IsCapital c) : (smallOf c).toNat = c.toNat + 32 := by
  rw [isCapital_iff] at h
  rw [smallOf, Char.toNat_ofNat, if_pos (.inl (by omega))]

theorem isSmall_smallOf {c : Char} (h : IsCapital c) : IsSmall (smallOf c) := by
  rw [isSmall_iff, toNat_smallOf h]
  rw [isCapital_iff] at h
  omega

theorem capitalOf_smallOf {c : Char} (h : IsCapital c) : capitalOf (smallOf c) = c := by
  rw [capitalOf, if_pos (isSmall_smallOf h), toNat_smallOf h, Nat.add_sub_cancel, Char.ofNat_toNat]

theorem not_isCapital_of_isSmall {c : Char} (h : IsSmall c) : ¬IsCapital c := by
  rw [isSmall_iff] at h
  rw [isCapital_iff]
  omega

theorem snakeChar_capital {c : Char} (h : IsCapital c) : snakeChar c = ['_', smallOf c] := if_pos h

theorem snakeChar_other {c : Char} (h : ¬IsCapital c) : snakeChar c = [c] := if_neg h

theorem snakeHead_capital {c : Char} (h : IsCapital c) : snakeHead c = [smallOf c] := if_pos h

theorem snakeHead_other {c : Char} (h : ¬IsCapital c) : snakeHead c = [c] := if_neg h

/-! ### No capitals are left -/

theorem not_isCapital_of_mem_snakeChar {c d : Char} (h : d ∈ snakeChar c) : ¬IsCapital d := by
  by_cases hc : IsCapital c
  · rw [snakeChar_capital hc, List.mem_pair] at h
    rcases h with rfl | rfl
    · decide
    · exact not_isCapital_of_isSmall (isSmall_smallOf hc)
  · rw [snakeChar_other hc, List.mem_singleton] at h
    rwa [h]

theorem not_isCapital_of_mem_snakeHead {c d : Char} (h : d ∈ snakeHead c) : ¬IsCapital d := by
  by_cases hc : IsCapital c
  · rw [snakeHead_capital hc, List.mem_singleton] at h
    rw [h]
    exact not_isCapital_of_isSmall (isSmall_smallOf hc)
  · rw [snakeHead_other hc, List.mem_singleton] at h
    rwa [h]

theorem not_isCapital_of_mem_snakeChars {cs : List Char} {d : Char} (h : d ∈ snakeChars cs) :
    ¬IsCapital d := by
  cases cs with
  | nil => cases h
  | cons c cs =>
      rcases List.mem_append.mp h with h | h
      · exact not_isCapital_of_mem_snakeHead h
      · obtain ⟨e, -, he⟩ := List.mem_flatMap.mp h
        exact not_isCapital_of_mem_snakeChar he

theorem snakeChars_of_no_capital {cs : List Char} (h : ∀ c ∈ cs, ¬IsCapital c) :
    snakeChars cs = cs := by
  cases cs with
  | nil => rfl
  | cons c cs =>
      obtain ⟨hc, hcs⟩ := List.forall_mem_cons.mp h
      have htail : cs.flatMap snakeChar = cs.flatMap fun d => [d] :=
        List.flatMap_congr fun d hd => snakeChar_other (hcs d hd)
      rw [snakeChars, snakeHead_other hc, htail, List.flatMap_singleton']
      rfl

theorem not_isUpperLetter_of_mem_ofChars {cs : List Char} (h : ∀ c ∈ cs, ¬IsCapital c) {b : UInt8}
    (hb : b ∈ ofChars cs) : isUpperLetter b = false := by
  by_contra hupper
  rw [Bool.not_eq_false, isUpperLetter_iff] at hupper
  obtain ⟨c, hc, hmem⟩ := List.mem_flatMap.mp hb
  have hlow : b < 0x80 := UInt8.lt_iff_toNat_lt.mpr (Nat.lt_of_le_of_lt hupper.2 (by decide))
  refine h c hc (isCapital_iff.mpr ?_)
  rwa [Glyph.toNat_of_mem_encode hlow hmem]

theorem snakeCase_snakeCase (s : Text) : s.snakeCase.snakeCase = s.snakeCase := by
  rw [snakeCase, snakeCase, chars_ofChars,
    snakeChars_of_no_capital fun c hc => not_isCapital_of_mem_snakeChars hc]

/-! ### Reading a name back -/

/-- An underscore and the letter after it are read as a capital. -/
def camelTail : List Char → List Char
  | [] => []
  | [c] => [c]
  | c :: d :: rest => if c = '_' then capitalOf d :: camelTail rest else c :: camelTail (d :: rest)

def camelChars : List Char → List Char
  | [] => []
  | c :: cs => capitalOf c :: camelTail cs

theorem camelTail_cons {c : Char} (h : c ≠ '_') (cs : List Char) :
    camelTail (c :: cs) = c :: camelTail cs := by
  cases cs with
  | nil => rfl
  | cons d cs => rw [camelTail, if_neg h]

theorem camelTail_flatMap {cs : List Char} (h : '_' ∉ cs) : camelTail (cs.flatMap snakeChar) = cs := by
  induction cs with
  | nil => rfl
  | cons c cs ih =>
      obtain ⟨hc, hcs⟩ := List.ne_and_not_mem_of_not_mem_cons h
      rw [List.flatMap_cons]
      by_cases hcapital : IsCapital c
      · rw [snakeChar_capital hcapital]
        change camelTail ('_' :: smallOf c :: cs.flatMap snakeChar) = _
        rw [camelTail, if_pos rfl, capitalOf_smallOf hcapital, ih hcs]
      · rw [snakeChar_other hcapital, List.singleton_append, camelTail_cons hc.symm, ih hcs]

/-- A name without underscores that starts with no small letter is read back. -/
theorem camelChars_snakeChars {cs : List Char} (hunderscore : '_' ∉ cs)
    (hhead : ∀ c ∈ cs.head?, ¬IsSmall c) : camelChars (snakeChars cs) = cs := by
  cases cs with
  | nil => rfl
  | cons c cs =>
      have htail := camelTail_flatMap (List.not_mem_of_not_mem_cons hunderscore)
      by_cases hcapital : IsCapital c
      · rw [snakeChars, snakeHead_capital hcapital, List.singleton_append, camelChars,
          capitalOf_smallOf hcapital, htail]
      · have hsmall : ¬IsSmall c := hhead c rfl
        rw [snakeChars, snakeHead_other hcapital, List.singleton_append, camelChars, capitalOf,
          if_neg hsmall, htail]

/-- A name with capitals, read from its form with underscores. -/
def camelCase (s : Text) : Text := ofChars (camelChars s.chars)

/-- Well-formed UTF-8 without underscores that does not start with a small letter of ASCII. -/
structure IsUnbroken (s : Text) : Prop where
  wellFormed : s.isUtf8 = true
  noUnderscore : 0x5F ∉ s
  noSmallHead : ∀ b ∈ s.head?, isLowerLetter b = false

namespace IsUnbroken

variable {s : Text}

theorem not_mem_chars (h : IsUnbroken s) : '_' ∉ s.chars :=
  fun hmem => h.noUnderscore (mem_of_mem_chars (by decide) hmem)

/-- A character of ASCII is one byte, so the first character is no small letter either. -/
theorem head_chars_not_small (h : IsUnbroken s) : ∀ c ∈ s.chars.head?, ¬IsSmall c := by
  intro c hc hsmall
  obtain ⟨cs, hchars⟩ := List.head?_eq_some_iff.mp hc
  rw [isSmall_iff] at hsmall
  have hbyte : s.head? = some (UInt8.ofNat c.toNat) := by
    rw [← ofChars_chars h.wellFormed, hchars, ofChars_cons, Glyph.encode_eq, if_pos (by omega)]
    rfl
  have hlower := h.noSmallHead _ hbyte
  rw [← Bool.not_eq_true, isLowerLetter_iff, Glyph.toNat_ofNat_of_lt (by omega)] at hlower
  exact hlower hsmall

theorem camelCase_snakeCase (h : IsUnbroken s) : s.snakeCase.camelCase = s := by
  rw [camelCase, snakeCase, chars_ofChars,
    camelChars_snakeChars h.not_mem_chars h.head_chars_not_small, ofChars_chars h.wellFormed]

end IsUnbroken

/-- A name in lower case with underscores is well-formed UTF-8 without capitals of ASCII and stays as it
is. Two well-formed names that have no underscores and do not start with a small letter of ASCII have the
same form with underscores only if they are equal. -/
theorem snakeCase_stable_unambiguous :
    (∀ s : Text, s.snakeCase.isUtf8 = true ∧ (∀ b ∈ s.snakeCase, isUpperLetter b = false) ∧
      s.snakeCase.snakeCase = s.snakeCase) ∧
    ∀ s t : Text, IsUnbroken s → IsUnbroken t → (s.snakeCase = t.snakeCase ↔ s = t) := by
  constructor
  · intro s
    refine ⟨isUtf8_ofChars _, ?_, snakeCase_snakeCase s⟩
    intro b hb
    exact not_isUpperLetter_of_mem_ofChars (fun c hc => not_isCapital_of_mem_snakeChars hc) hb
  · intro s t hs ht
    constructor
    · intro h
      rw [← hs.camelCase_snakeCase, h, ht.camelCase_snakeCase]
    · exact congrArg snakeCase

theorem snakeCase_stable_unambiguous_capitals :
    IsUnbroken (utf8 "ÉtatIDs") ∧ IsUnbroken (utf8 "ÉtatIds") ∧
      (utf8 "ÉtatIDs").snakeCase = utf8 "État_i_ds" ∧
      (utf8 "ÉtatIDs").snakeCase ≠ (utf8 "ÉtatIds").snakeCase ∧
      snakeCase (utf8 "État_i_ds") = utf8 "État_i_ds" := by
  have hupper : IsUnbroken (utf8 "ÉtatIDs") := ⟨by decide +kernel, by decide +kernel, by decide +kernel⟩
  have hlower : IsUnbroken (utf8 "ÉtatIds") := ⟨by decide +kernel, by decide +kernel, by decide +kernel⟩
  have hsnake : (utf8 "ÉtatIDs").snakeCase = utf8 "État_i_ds" := by decide +kernel
  refine ⟨hupper, hlower, hsnake, ?_, ?_⟩
  · rw [Ne, snakeCase_stable_unambiguous.2 _ _ hupper hlower]
    decide +kernel
  · rw [← hsnake]
    exact (snakeCase_stable_unambiguous.1 _).2.2

end ServiceKit.Text
