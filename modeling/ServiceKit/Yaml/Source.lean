import ServiceKit.Text.Encoded

/-!
The characters of a YAML stream. A stream is loaded a window of bytes at a time, and what is wrong
with its bytes shows only when their window is loaded.
-/

namespace ServiceKit.Yaml

/-- A position in a stream; lines and columns are counted from zero. -/
structure Mark where
  index : Nat := 0
  line : Nat := 0
  column : Nat := 0
deriving DecidableEq, Repr, Inhabited

/-- Why a stream cannot be read, and the line that is named for it; line zero is not named. -/
structure Problem where
  line : Nat := 0
  what : Text
deriving DecidableEq, Repr

namespace Problem

def plain (what : String) : Problem := { what := utf8 what }

/-- A problem inside a token. The line where the token starts is named, unless it is the first one;
then that of the problem is. -/
def inToken (start here : Mark) (what : String) : Problem where
  line := if start.line ≠ 0 then start.line + 1 else if here.line ≠ 0 then here.line + 1 else 0
  what := utf8 what

/-- A problem among tokens, named by the line before the one that a problem inside a token would
be named by. -/
def amongTokens (start here : Mark) (what : String) : Problem where
  line := if start.line ≠ 0 then start.line else here.line
  what := utf8 what

end Problem

/-! ### Characters and bytes -/

/-- May a character stand in a stream? -/
def isAllowed (n : Nat) : Bool :=
  n == 0x09 || n == 0x0A || n == 0x0D || (0x20 ≤ n && n ≤ 0x7E) || n == 0x85
    || (0xA0 ≤ n && n ≤ 0xD7FF) || (0xE000 ≤ n && n ≤ 0xFFFD) || (0x10000 ≤ n && n ≤ 0x10FFFF)

def allowedChar (n : Nat) : Except Problem Char :=
  if isAllowed n then .ok (Char.ofNat n)
  else .error (.plain "control characters are not allowed")

/-- The number of bytes that a leading byte announces, and its payload. -/
def leadWidth? (b : UInt8) : Option (Nat × Nat) :=
  let n := b.toNat
  if n < 0x80 then some (1, n)
  else if n < 0xC0 then none
  else if n < 0xE0 then some (2, n - 0xC0)
  else if n < 0xF0 then some (3, n - 0xE0)
  else if n < 0xF8 then some (4, n - 0xF0)
  else none

/-- The code point of a leading payload and the bytes after it. -/
def trailing (acc : Nat) : Text → Except Problem Nat
  | [] => .ok acc
  | b :: bs =>
    match Glyph.continuation? b with
    | some v => trailing (acc * 0x40 + v) bs
    | none => .error (.plain "invalid trailing UTF-8 octet")

/-- A character of a given width, checked. -/
def checkedPoint (width n : Nat) : Except Problem Char :=
  let least := if width = 2 then 0x80 else if width = 3 then 0x800 else if width = 4 then 0x10000 else 0
  if n < least then .error (.plain "invalid length of a UTF-8 sequence")
  else if (0xD800 ≤ n && n ≤ 0xDFFF) || 0x10FFFF < n then
    .error (.plain "invalid Unicode character")
  else allowedChar n

/-! ### Windows -/

structure Stream where
  chars : List Char
  /-- The number of characters. -/
  size : Nat
  /-- The numbers of characters up to the end of each window that loads. -/
  ends : List Nat
  /-- What is wrong with the bytes after the characters. -/
  fault : Option Problem

/-- A stream that is being loaded, the latest first. -/
structure Loading where
  chars : List Char := []
  size : Nat := 0
  ends : List Nat := []
  /-- The bytes of the current window that are used up. -/
  used : Nat := 0

namespace Loading

/-- The number of bytes of a window. A character that does not fit into one starts the next. -/
def windowSize : Nat := 512

/-- The current window is at its end. -/
def close (l : Loading) : Loading := { l with ends := l.size :: l.ends, used := 0 }

/-- A window that has room for some bytes more. -/
def withRoom (width : Nat) (l : Loading) : Loading :=
  if windowSize < l.used + width then l.close else l

def add (width : Nat) (c : Char) (l : Loading) : Loading :=
  { l with chars := c :: l.chars, size := l.size + 1, used := l.used + width }

def finish (fault : Option Problem) (l : Loading) : Stream :=
  ⟨l.chars.reverse, l.size, l.ends.reverse, fault⟩

/-- The stream ends where its bytes end. -/
def ended (l : Loading) : Stream := l.close.finish none

/-- The current window does not load. -/
def broken (p : Problem) (l : Loading) : Stream := l.finish (some p)

/-- The stream ends inside a character. The characters before it load; only what comes next does
not. -/
def cutShort (what : String) (l : Loading) : Stream := l.close.broken (.plain what)

/-- The characters of a stream in UTF-8; some bytes of the last character are still to be passed
over. -/
def ofUtf8 : Nat → Loading → Text → Stream
  | _, l, [] => l.ended
  | n + 1, l, _ :: rest => ofUtf8 n l rest
  | 0, l, b :: rest =>
    match leadWidth? b with
    | none => (l.withRoom 1).broken (.plain "invalid leading UTF-8 octet")
    | some (width, payload) =>
      let l := l.withRoom width
      let others := rest.take (width - 1)
      if others.length < width - 1 then l.cutShort "incomplete UTF-8 octet sequence"
      else
        match trailing payload others >>= checkedPoint width with
        | .error p => l.broken p
        | .ok c => ofUtf8 (width - 1) (l.add width c) rest

def ofUtf16 (bigEndian : Bool) (l : Loading) : Text → Stream
  | [] => l.ended
  | [_] => l.cutShort "incomplete UTF-16 character"
  | a :: b :: rest =>
    let u := Text.unit bigEndian a b
    let l := l.withRoom (if Text.isHighSurrogate u then 4 else 2)
    if Text.isLowSurrogate u then l.broken (.plain "unexpected low surrogate area")
    else if Text.isHighSurrogate u then
      match rest with
      | c :: d :: rest =>
        let v := Text.unit bigEndian c d
        if Text.isLowSurrogate v then
          match allowedChar (Text.pairPoint u v) with
          | .error p => l.broken p
          | .ok x => ofUtf16 bigEndian (l.add 4 x) rest
        else l.broken (.plain "expected low surrogate area")
      | _ => l.cutShort "incomplete UTF-16 surrogate pair"
    else
      match allowedChar u with
      | .error p => l.broken p
      | .ok x => ofUtf16 bigEndian (l.add 2 x) rest

end Loading

/-- The characters of a stream. A byte order mark at its start tells how it is encoded, and is no
character of it. -/
def Stream.ofText : Text → Stream
  | 0xFF :: 0xFE :: rest => Loading.ofUtf16 false { used := 2 } rest
  | 0xFE :: 0xFF :: rest => Loading.ofUtf16 true { used := 2 } rest
  | 0xEF :: 0xBB :: 0xBF :: rest => Loading.ofUtf8 0 { used := 3 } rest
  | s => Loading.ofUtf8 0 {} s

end ServiceKit.Yaml
