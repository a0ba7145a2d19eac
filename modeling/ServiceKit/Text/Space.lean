import ServiceKit.Text.Glyph

/-!
White space around a text.
-/

namespace ServiceKit.Text

/-- The code points with the property White_Space. -/
def isSpacePoint (n : Nat) : Bool :=
  (0x09 ≤ n && n ≤ 0x0D) || n == 0x20 || n == 0x85 || n == 0xA0 || n == 0x1680
    || (0x2000 ≤ n && n ≤ 0x200A) || n == 0x2028 || n == 0x2029 || n == 0x202F || n == 0x205F
    || n == 0x3000

/-- A stray byte is no white space. -/
def isSpaceGlyph : Glyph → Bool
  | .char c => isSpacePoint c.toNat
  | .stray _ => false

/-- A list without the part at its end that satisfies a test. -/
def dropEndWhile {α : Type} (p : α → Bool) (l : List α) : List α := (l.reverse.dropWhile p).reverse

/-- A text without the white space at its two ends. -/
def trim (s : Text) : Text :=
  ofGlyphs (dropEndWhile isSpaceGlyph (s.glyphs.dropWhile isSpaceGlyph))

end ServiceKit.Text
