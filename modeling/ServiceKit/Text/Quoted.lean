import ServiceKit.Number.Digits
import ServiceKit.Text.Glyph
import ServiceKit.Text.Printable

/-!
Texts between quotes, with escapes for what cannot be shown.
-/

namespace ServiceKit.Text

/-- A letter after a backslash for each control character that has one. -/
def controlLetter? : Nat → Option UInt8
  | 0x07 => some 0x61
  | 0x08 => some 0x62
  | 0x09 => some 0x74
  | 0x0A => some 0x6E
  | 0x0B => some 0x76
  | 0x0C => some 0x66
  | 0x0D => some 0x72
  | _ => none

/-- A backslash, a marker, and a number of hexadecimal digits. -/
def hexEscape (marker : UInt8) (width n : Nat) : Text :=
  0x5C :: marker :: Number.padded width (Number.hexadecimal n)

/-- A character between quotes: itself if it can be shown and is neither the quote nor a
backslash, else an escape. -/
def escapedChar (quote : UInt8) (c : Char) : Text :=
  let n := c.toNat
  if n = quote.toNat ∨ n = 0x5C then [0x5C, UInt8.ofNat n]
  else if isPrintable c then String.utf8EncodeChar c
  else match controlLetter? n with
    | some l => [0x5C, l]
    | none =>
      if n < 0x20 ∨ n = 0x7F then hexEscape 0x78 2 n
      else if n < 0x10000 then hexEscape 0x75 4 n
      else hexEscape 0x55 8 n

def escapedGlyph (quote : UInt8) : Glyph → Text
  | .char c => escapedChar quote c
  | .stray b => hexEscape 0x78 2 b.toNat

def quoted (s : Text) : Text := 0x22 :: s.glyphs.flatMap (escapedGlyph 0x22) ++ [0x22]

/-- One byte in single quotes, shown as the character of its number. A double quote stands for
itself. -/
def quotedByte (b : UInt8) : Text :=
  0x27 :: (if b = 0x22 then [b] else escapedChar 0x27 (Char.ofNat b.toNat)) ++ [0x27]

end ServiceKit.Text
