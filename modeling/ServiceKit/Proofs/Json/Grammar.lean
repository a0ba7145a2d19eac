import Mathlib
import ServiceKit.Json.Reader

/-!
The grammar of JSON: which texts are values and documents, and what each of them denotes. It is stated
on its own, by the forms that a text may have; nothing in it depends on how a text is read.
-/

namespace ServiceKit.Json

/-! ### Tokens -/

/-- Nothing but space, tab, line feed and carriage return. -/
def Blanks (s : Text) : Prop := ∀ b ∈ s, b = 0x20 ∨ b = 0x09 ∨ b = 0x0A ∨ b = 0x0D

/-- One decimal digit or more. -/
def Digits (s : Text) : Prop := s ≠ [] ∧ ∀ b ∈ s, Text.isDigit b = true

/-- The marks of an exponent. -/
def exponentMarks : List Text :=
  [[0x65], [0x45], [0x65, 0x2B], [0x45, 0x2B], [0x65, 0x2D], [0x45, 0x2D]]

/-- A number literal: digits, of which a zero in front stands alone, then maybe digits after a point,
then maybe digits after the mark of an exponent. -/
structure Literal.WellFormed (l : Literal) : Prop where
  whole : Digits l.whole
  zero_alone : l.whole.head? = some 0x30 → l.whole = [0x30]
  fraction : ∀ ds, l.fraction = some ds → Digits ds
  exponent : ∀ mark ds, l.exponent = some (mark, ds) → mark ∈ exponentMarks ∧ Digits ds

/-- The letters that may follow a backslash, with the bytes that they stand for. -/
def letterEscapes : List (UInt8 × UInt8) :=
  [(0x22, 0x22), (0x5C, 0x5C), (0x2F, 0x2F), (0x62, 0x08), (0x66, 0x0C), (0x6E, 0x0A), (0x72, 0x0D),
    (0x74, 0x09)]

/-- What may stand between the quotes of a string, and the parts that it consists of: bytes from the
space on other than quote and backslash, letters after a backslash, and UTF-16 units in four
hexadecimal digits. The bytes need not be UTF-8. -/
inductive IsBody : Text → List Piece → Prop
  | nil : IsBody [] []
  | byte {b : UInt8} {s : Text} {ps : List Piece} : 0x20 ≤ b → b ≠ 0x22 → b ≠ 0x5C → IsBody s ps →
      IsBody (b :: s) (.byte b :: ps)
  | letter {l b : UInt8} {s : Text} {ps : List Piece} : (l, b) ∈ letterEscapes → IsBody s ps →
      IsBody (0x5C :: l :: s) (.byte b :: ps)
  | unit {h₁ h₂ h₃ h₄ : UInt8} {d₁ d₂ d₃ d₄ : Nat} {s : Text} {ps : List Piece} :
      Number.hexValue? h₁ = some d₁ → Number.hexValue? h₂ = some d₂ → Number.hexValue? h₃ = some d₃ →
      Number.hexValue? h₄ = some d₄ → IsBody s ps →
      IsBody (0x5C :: 0x75 :: h₁ :: h₂ :: h₃ :: h₄ :: s)
        (.unit (((d₁ * 16 + d₂) * 16 + d₃) * 16 + d₄) :: ps)

/-- The text of a string by its parts, with U+FFFD for stray bytes. -/
def bodyText (ps : List Piece) : Text := (joinPieces ps).sanitize

/-! ### Values -/

mutual

/-- A text that is a value, and the document that it denotes: members in their order, with all of
those that share a key. -/
inductive IsValue : Text → Json Literal → Prop
  | nullWord : IsValue (utf8 "null") .null
  | trueWord : IsValue (utf8 "true") (.bool true)
  | falseWord : IsValue (utf8 "false") (.bool false)
  | number {l : Literal} : l.WellFormed → IsValue l.text (.number l)
  | string {s : Text} {ps : List Piece} : IsBody s ps →
      IsValue (0x22 :: (s ++ [0x22])) (.string (bodyText ps))
  | noElements {w : Text} : Blanks w → IsValue (0x5B :: (w ++ [0x5D])) (.array [])
  | array {s : Text} {xs : List (Json Literal)} : IsElements s xs →
      IsValue (0x5B :: (s ++ [0x5D])) (.array xs)
  | noMembers {w : Text} : Blanks w → IsValue (0x7B :: (w ++ [0x7D])) (.object [])
  | object {s : Text} {ms : List (Text × Json Literal)} : IsMembers s ms →
      IsValue (0x7B :: (s ++ [0x7D])) (.object ms)

/-- A value with blanks around it. -/
inductive IsDocument : Text → Json Literal → Prop
  | mk {v s w : Text} {x : Json Literal} : Blanks v → IsValue s x → Blanks w →
      IsDocument (v ++ (s ++ w)) x

/-- Values with commas between them. -/
inductive IsElements : Text → List (Json Literal) → Prop
  | last {s : Text} {x : Json Literal} : IsDocument s x → IsElements s [x]
  | cons {s t : Text} {x : Json Literal} {xs : List (Json Literal)} : IsDocument s x →
      IsElements t xs → IsElements (s ++ 0x2C :: t) (x :: xs)

/-- A key and a value with a colon between them. -/
inductive IsMember : Text → Text × Json Literal → Prop
  | mk {v k w s : Text} {ps : List Piece} {x : Json Literal} : Blanks v → IsBody k ps → Blanks w →
      IsDocument s x → IsMember (v ++ 0x22 :: (k ++ 0x22 :: (w ++ 0x3A :: s))) (bodyText ps, x)

/-- Members with commas between them. -/
inductive IsMembers : Text → List (Text × Json Literal) → Prop
  | last {s : Text} {m : Text × Json Literal} : IsMember s m → IsMembers s [m]
  | cons {s t : Text} {m : Text × Json Literal} {ms : List (Text × Json Literal)} : IsMember s m →
      IsMembers t ms → IsMembers (s ++ 0x2C :: t) (m :: ms)

end

/-! ### Measures of a document -/

variable {ν : Type}

mutual

/-- How deep arrays and objects are nested. -/
def depth : Json ν → Nat
  | null => 0
  | bool _ => 0
  | number _ => 0
  | string _ => 0
  | array xs => elementsDepth xs + 1
  | object ms => membersDepth ms + 1

def elementsDepth : List (Json ν) → Nat
  | [] => 0
  | x :: xs => max (depth x) (elementsDepth xs)

def membersDepth : List (Text × Json ν) → Nat
  | [] => 0
  | (_, x) :: ms => max (depth x) (membersDepth ms)

end

mutual

/-- The numbers of a value from left to right. -/
def numbers : Json ν → List ν
  | null => []
  | bool _ => []
  | number n => [n]
  | string _ => []
  | array xs => elementsNumbers xs
  | object ms => membersNumbers ms

def elementsNumbers : List (Json ν) → List ν
  | [] => []
  | x :: xs => numbers x ++ elementsNumbers xs

def membersNumbers : List (Text × Json ν) → List ν
  | [] => []
  | (_, x) :: ms => numbers x ++ membersNumbers ms

end

mutual

/-- The strings and keys of a value from left to right. -/
def texts : Json ν → List Text
  | null => []
  | bool _ => []
  | number _ => []
  | string s => [s]
  | array xs => elementsTexts xs
  | object ms => membersTexts ms

def elementsTexts : List (Json ν) → List Text
  | [] => []
  | x :: xs => texts x ++ elementsTexts xs

def membersTexts : List (Text × Json ν) → List Text
  | [] => []
  | (k, x) :: ms => k :: texts x ++ membersTexts ms

end

/-! The numbers of a document are literals. -/

mutual

theorem IsValue.wellFormed {s : Text} {x : Json Literal} {l : Literal} :
    IsValue s x → l ∈ x.numbers → l.WellFormed
  | .nullWord, hl => absurd hl List.not_mem_nil
  | .trueWord, hl => absurd hl List.not_mem_nil
  | .falseWord, hl => absurd hl List.not_mem_nil
  | .number h, hl => List.mem_singleton.mp hl ▸ h
  | .string _, hl => absurd hl List.not_mem_nil
  | .noElements _, hl => absurd hl List.not_mem_nil
  | .array hs, hl => hs.wellFormed hl
  | .noMembers _, hl => absurd hl List.not_mem_nil
  | .object hs, hl => hs.wellFormed hl

theorem IsDocument.wellFormed {s : Text} {x : Json Literal} {l : Literal} :
    IsDocument s x → l ∈ x.numbers → l.WellFormed
  | .mk _ hs _, hl => hs.wellFormed hl

theorem IsElements.wellFormed {s : Text} {xs : List (Json Literal)} {l : Literal} :
    IsElements s xs → l ∈ elementsNumbers xs → l.WellFormed
  | .last hs, hl => hs.wellFormed ((List.mem_append.mp hl).resolve_right List.not_mem_nil)
  | .cons hs ht, hl => (List.mem_append.mp hl).elim (hs.wellFormed ·) (ht.wellFormed ·)

theorem IsMember.wellFormed {s : Text} {m : Text × Json Literal} {l : Literal} :
    IsMember s m → l ∈ m.2.numbers → l.WellFormed
  | .mk _ _ _ hs, hl => hs.wellFormed hl

theorem IsMembers.wellFormed {s : Text} {ms : List (Text × Json Literal)} {l : Literal} :
    IsMembers s ms → l ∈ membersNumbers ms → l.WellFormed
  | .last hs, hl => hs.wellFormed ((List.mem_append.mp hl).resolve_right List.not_mem_nil)
  | .cons hs ht, hl => (List.mem_append.mp hl).elim (hs.wellFormed ·) (ht.wellFormed ·)

end

/-! ### Blanks around values -/

theorem blanks_nil : Blanks [] := fun _ h => nomatch h

theorem IsValue.isDocument {s : Text} {x : Json Literal} (h : IsValue s x) : IsDocument s x := by
  have hdocument := IsDocument.mk blanks_nil h blanks_nil
  rwa [List.nil_append, List.append_nil] at hdocument

theorem Blanks.append {v w : Text} (hv : Blanks v) (hw : Blanks w) : Blanks (v ++ w) := by
  intro b hb
  rcases List.mem_append.mp hb with hb | hb
  · exact hv b hb
  · exact hw b hb

theorem IsDocument.pad {v s : Text} {x : Json Literal} (hv : Blanks v) (h : IsDocument s x) :
    IsDocument (v ++ s) x := by
  cases h with
  | mk hv' hs hw =>
      rw [← List.append_assoc]
      exact .mk (hv.append hv') hs hw

theorem IsElements.pad {v s : Text} {xs : List (Json Literal)} (hv : Blanks v) (h : IsElements s xs) :
    IsElements (v ++ s) xs := by
  cases h with
  | last h => exact .last (h.pad hv)
  | cons h ht =>
      rw [← List.append_assoc]
      exact .cons (h.pad hv) ht

theorem IsMember.pad {v s : Text} {m : Text × Json Literal} (hv : Blanks v) (h : IsMember s m) :
    IsMember (v ++ s) m := by
  cases h with
  | mk hv' hk hw hs =>
      rw [← List.append_assoc]
      exact .mk (hv.append hv') hk hw hs

theorem IsMembers.pad {v s : Text} {ms : List (Text × Json Literal)} (hv : Blanks v)
    (h : IsMembers s ms) : IsMembers (v ++ s) ms := by
  cases h with
  | last h => exact .last (h.pad hv)
  | cons h ht =>
      rw [← List.append_assoc]
      exact .cons (h.pad hv) ht

end ServiceKit.Json
