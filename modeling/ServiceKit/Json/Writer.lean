import ServiceKit.Json.Value
import ServiceKit.Text.Quoted

/-!
Writing JSON documents: no blanks, members in the order in which they stand.
-/

namespace ServiceKit.Json

/-- Which characters of a string are escaped. A quote, a backslash, the control characters of ASCII
and stray bytes always are. -/
inductive StringStyle where
  /-- The two line separators of Unicode are escaped. -/
  | plain
  /-- The line separators and the characters special to markup are escaped. -/
  | markup
  /-- The delete character is escaped. -/
  | event
deriving DecidableEq, Repr

/-- The letter after a backslash for a byte that has one. -/
def shortEscape? : Nat → Option UInt8
  | 0x08 => some 0x62
  | 0x09 => some 0x74
  | 0x0A => some 0x6E
  | 0x0C => some 0x66
  | 0x0D => some 0x72
  | 0x22 => some 0x22
  | 0x5C => some 0x5C
  | _ => none

namespace StringStyle

/-- Is a character escaped by its number? -/
def escapes (style : StringStyle) (n : Nat) : Bool :=
  n < 0x20 || (match style with
    | plain => n == 0x2028 || n == 0x2029
    | markup => n == 0x2028 || n == 0x2029 || n == 0x3C || n == 0x3E || n == 0x26
    | event => n == 0x7F)

def escapeChar (style : StringStyle) (c : Char) : Text :=
  match shortEscape? c.toNat with
  | some l => [0x5C, l]
  | none =>
    if style.escapes c.toNat then Text.hexEscape 0x75 4 c.toNat else String.utf8EncodeChar c

def escape (style : StringStyle) : Glyph → Text
  | .char c => style.escapeChar c
  | .stray _ => utf8 "\\ufffd"

def write (style : StringStyle) (s : Text) : Text :=
  0x22 :: s.glyphs.flatMap style.escape ++ [0x22]

end StringStyle

variable {ν : Type}

mutual

/-- The text of a value followed by another text. Numbers are written by `num`. -/
def writeBefore (style : StringStyle) (num : ν → Text) : Json ν → Text → Text
  | null, rest => utf8 "null" ++ rest
  | bool true, rest => utf8 "true" ++ rest
  | bool false, rest => utf8 "false" ++ rest
  | number n, rest => num n ++ rest
  | string s, rest => style.write s ++ rest
  | array [], rest => 0x5B :: 0x5D :: rest
  | array (x :: xs), rest => 0x5B :: writeBefore style num x (elementsBefore style num xs rest)
  | object [], rest => 0x7B :: 0x7D :: rest
  | object ((k, x) :: ms), rest =>
    0x7B :: style.write k ++ 0x3A :: writeBefore style num x (membersBefore style num ms rest)

/-- The elements after the first one, the closing bracket, and another text. -/
def elementsBefore (style : StringStyle) (num : ν → Text) : List (Json ν) → Text → Text
  | [], rest => 0x5D :: rest
  | x :: xs, rest => 0x2C :: writeBefore style num x (elementsBefore style num xs rest)

/-- The members after the first one, the closing brace, and another text. -/
def membersBefore (style : StringStyle) (num : ν → Text) : List (Text × Json ν) → Text → Text
  | [], rest => 0x7D :: rest
  | (k, x) :: ms, rest =>
    0x2C :: style.write k ++ 0x3A :: writeBefore style num x (membersBefore style num ms rest)

end

def write (style : StringStyle) (num : ν → Text) (x : Json ν) : Text := writeBefore style num x []

end ServiceKit.Json
