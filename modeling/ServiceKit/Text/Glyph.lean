import ServiceKit.Text.Basic

/-!
Texts read as UTF-8. A text is a sequence of glyphs: characters, and stray bytes that belong to no
character. The glyphs of a text put together again are the text.
-/

namespace ServiceKit

/-- What one step of reading a text yields. -/
inductive Glyph where
  | char (c : Char)
  | stray (b : UInt8)
deriving DecidableEq, Repr

namespace Glyph

/-- The character that replaces a stray byte where only characters may stand. -/
def replacement : Char := Char.ofNat 0xFFFD

def bytes : Glyph → Text
  | char c => String.utf8EncodeChar c
  | stray b => [b]

def width (g : Glyph) : Nat := g.bytes.length

def shown : Glyph → Char
  | char c => c
  | stray _ => replacement

def isStray : Glyph → Bool
  | char _ => false
  | stray _ => true

/-- The payload of a continuation byte. -/
def continuation? (b : UInt8) : Option Nat :=
  if 0x80 ≤ b && b ≤ 0xBF then some (b.toNat - 0x80) else none

/-- The character of a code point, if there is one and it is not below `least`: a character is
written in its shortest form only. -/
def charFrom? (least n : Nat) : Option Char :=
  if least ≤ n ∧ n.isValidChar then some (Char.ofNat n) else none

/-- The character that starts a text, read from its first byte and what follows. -/
def leading? (b : UInt8) (rest : Text) : Option Char :=
  if b < 0x80 then some (Char.ofNat b.toNat)
  else if b < 0xC0 then none
  else if b < 0xE0 then
    match rest with
    | b1 :: _ => do
      let c1 ← continuation? b1
      charFrom? 0x80 ((b.toNat - 0xC0) * 0x40 + c1)
    | [] => none
  else if b < 0xF0 then
    match rest with
    | b1 :: b2 :: _ => do
      let c1 ← continuation? b1
      let c2 ← continuation? b2
      charFrom? 0x800 ((b.toNat - 0xE0) * 0x1000 + c1 * 0x40 + c2)
    | _ => none
  else if b < 0xF8 then
    match rest with
    | b1 :: b2 :: b3 :: _ => do
      let c1 ← continuation? b1
      let c2 ← continuation? b2
      let c3 ← continuation? b3
      charFrom? 0x10000 ((b.toNat - 0xF0) * 0x40000 + c1 * 0x1000 + c2 * 0x40 + c3)
    | _ => none
  else none

def first (b : UInt8) (rest : Text) : Glyph :=
  match leading? b rest with
  | some c => char c
  | none => stray b

/-- Reading with some bytes still to pass over: those of the glyph read last. -/
def readFrom : Nat → Text → List Glyph
  | _, [] => []
  | 0, b :: rest =>
    let g := first b rest
    g :: readFrom (g.width - 1) rest
  | n + 1, _ :: rest => readFrom n rest

end Glyph

namespace Text

def glyphs (s : Text) : List Glyph := Glyph.readFrom 0 s

def ofGlyphs (gs : List Glyph) : Text := gs.flatMap Glyph.bytes

/-- The characters of a text, with U+FFFD for each stray byte. -/
def chars (s : Text) : List Char := s.glyphs.map Glyph.shown

/-- A text in which each stray byte is replaced by U+FFFD. -/
def sanitize (s : Text) : Text := ofChars s.chars

def isUtf8 (s : Text) : Bool := s.glyphs.all fun g => !g.isStray

/-- The number of glyphs, which is the length that a reader sees. -/
def glyphCount (s : Text) : Nat := s.glyphs.length

end Text

end ServiceKit
