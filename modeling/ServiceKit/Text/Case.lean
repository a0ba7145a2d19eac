import ServiceKit.Text.CaseTable
import ServiceKit.Text.Glyph

/-!
Lower and upper case, character by character.
-/

namespace ServiceKit.Text

def lowerPoint (n : Nat) : Nat :=
  if n < 0x80 then (if 0x41 ≤ n && n ≤ 0x5A then n + 0x20 else n)
  else CaseRun.apply CaseRun.lowerTable n

def upperPoint (n : Nat) : Nat :=
  if n < 0x80 then (if 0x61 ≤ n && n ≤ 0x7A then n - 0x20 else n)
  else CaseRun.apply CaseRun.upperTable n

def lowerChar (c : Char) : Char := Char.ofNat (lowerPoint c.toNat)

def upperChar (c : Char) : Char := Char.ofNat (upperPoint c.toNat)

/-- Every character in lower case, U+FFFD for each stray byte. -/
def lower (s : Text) : Text := ofChars (s.chars.map lowerChar)

/-- Every character in upper case, U+FFFD for each stray byte. -/
def upper (s : Text) : Text := ofChars (s.chars.map upperChar)

/-- One code point for all that differ in case only. A dotted capital I and a small i without a dot are
letters of their own. -/
def foldPoint (n : Nat) : Nat :=
  if n = 0x130 ∨ n = 0x131 then n else lowerPoint (upperPoint n)

/-- Equality of texts without regard to case, U+FFFD standing for each stray byte. -/
def sameLetters (s t : Text) : Bool :=
  let fold (u : Text) : List Nat := u.chars.map fun c => foldPoint c.toNat
  fold s == fold t

end ServiceKit.Text
