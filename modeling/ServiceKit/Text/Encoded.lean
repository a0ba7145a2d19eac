import ServiceKit.Text.Glyph

/-!
Texts whose encoding is told by a byte order mark at their start. What is not well-formed is read as
U+FFFD.
-/

namespace ServiceKit.Text

/-! ### Two bytes a unit -/

def unit (bigEndian : Bool) (a b : UInt8) : Nat :=
  if bigEndian then a.toNat * 256 + b.toNat else b.toNat * 256 + a.toNat

def isLowSurrogate (u : Nat) : Bool := 0xDC00 ≤ u && u < 0xE000

def isHighSurrogate (u : Nat) : Bool := 0xD800 ≤ u && u < 0xDC00

def pairPoint (high low : Nat) : Nat := 0x10000 + (high - 0xD800) * 0x400 + (low - 0xDC00)

/-- The characters of a text in UTF-16. A low surrogate belongs to the surrogate before it, whichever
that is. -/
def wideChars (bigEndian : Bool) : Text → List Char
  | [] => []
  | [_] => [Glyph.replacement]
  | a :: b :: rest =>
    let u := unit bigEndian a b
    if isHighSurrogate u || isLowSurrogate u then
      match rest with
      | c :: d :: more =>
        let v := unit bigEndian c d
        if !isLowSurrogate v then Glyph.replacement :: wideChars bigEndian (c :: d :: more)
        else if isHighSurrogate u then Char.ofNat (pairPoint u v) :: wideChars bigEndian more
        else Glyph.replacement :: wideChars bigEndian more
      | short => Glyph.replacement :: wideChars bigEndian short
    else Char.ofNat u :: wideChars bigEndian rest

/-! ### UTF-8 -/

/-- May a byte follow the first one of a character? -/
def maySecond (first second : UInt8) : Bool :=
  let least : UInt8 := if first = 0xE0 then 0xA0 else if first = 0xF0 then 0x90 else 0x80
  let most : UInt8 := if first = 0xED then 0x9F else if first = 0xF4 then 0x8F else 0xBF
  least ≤ second && second ≤ most

/-- The number of bytes at the start of a text that could have started a character and do not. -/
def brokenWidth (b : UInt8) (rest : Text) : Nat :=
  let isContinuation (x : UInt8) : Bool := (Glyph.continuation? x).isSome
  if b < 0xE0 || 0xF4 < b then 1
  else match rest with
    | b1 :: more =>
      if !maySecond b b1 then 1
      else if b < 0xF0 then 2
      else if (more.head?.map isContinuation).getD false then 3
      else 2
    | [] => 1

/-- The characters of a text in UTF-8, with U+FFFD for each broken character; some bytes of the last
one are still to be passed over. -/
def tolerantChars : Nat → Text → List Char
  | _, [] => []
  | n + 1, _ :: rest => tolerantChars n rest
  | 0, b :: rest =>
    match Glyph.leading? b rest with
    | some c => c :: tolerantChars (c.utf8Size - 1) rest
    | none => Glyph.replacement :: tolerantChars (brokenWidth b rest - 1) rest

/-- A text without its byte order mark, in UTF-8. A text without a mark stays as it is. -/
def unmarked : Text → Text
  | 0xFF :: 0xFE :: rest => ofChars (wideChars false rest)
  | 0xFE :: 0xFF :: rest => ofChars (wideChars true rest)
  | 0xEF :: 0xBB :: 0xBF :: rest => ofChars (tolerantChars 0 rest)
  | s => s

end ServiceKit.Text
