import ServiceKit.Number.Numeral

/-!
Numbers read from texts.
-/

namespace ServiceKit.Number

inductive NumberFault where
  | malformed
  | outOfRange
deriving DecidableEq, Repr

namespace NumberFault

def message : NumberFault → Text
  | malformed => utf8 "invalid syntax"
  | outOfRange => utf8 "value out of range"

end NumberFault

/-- The value of a digit or letter in bases up to 36. -/
def digitValue? (b : UInt8) : Option Nat :=
  if Text.isDigit b then some (b.toNat - 0x30)
  else if Text.isLowerLetter b then some (b.toNat - 0x57)
  else if Text.isUpperLetter b then some (b.toNat - 0x37)
  else none

/-- Digits in a base, up to a limit. The first digit that exceeds the limit ends the reading. -/
def digitsIn (base limit : Nat) : Nat → Text → Except NumberFault Nat
  | acc, [] => .ok acc
  | acc, b :: rest =>
    match digitValue? b with
    | none => .error .malformed
    | some d =>
      if base ≤ d then .error .malformed
      else if limit < acc * base + d then .error .outOfRange
      else digitsIn base limit (acc * base + d) rest

/-- The base that the start of a text announces, and the digits after it. -/
def announcedBase (s : Text) : Nat × Text :=
  match s with
  | 0x30 :: b :: c :: rest =>
    let l := b ||| 0x20
    if l = 0x62 then (2, c :: rest)
    else if l = 0x6F then (8, c :: rest)
    else if l = 0x78 then (16, c :: rest)
    else (8, b :: c :: rest)
  | 0x30 :: rest => (8, rest)
  | s => (10, s)

/-- Do underscores stand between digits only? A base in front counts as a digit. -/
def underscoresFit (isDigit : UInt8 → Bool) (afterDigit : Bool) : Text → Bool
  | [] => true
  | 0x5F :: rest =>
    afterDigit && (rest.head?.map isDigit).getD false && underscoresFit isDigit false rest
  | b :: rest => underscoresFit isDigit (isDigit b) rest

def dropUnderscores (s : Text) : Text := s.filter (· != 0x5F)

/-- A natural number of 64 bits in a base; base zero takes the base that the text announces, and
allows underscores. -/
def naturalOf (base : Nat) (s : Text) : Except NumberFault Nat :=
  let limit := pow2 64 - 1
  match s with
  | [] => .error .malformed
  | s =>
    if base = 0 then do
      let (announced, digits) := announcedBase s
      let n ← digitsIn announced limit 0 (dropUnderscores digits)
      if underscoresFit (· != 0x5F) (announced ≠ 10) digits then .ok n else .error .malformed
    else digitsIn base limit 0 s

/-- A sign in front of a text, and the text after it. -/
def signOf : Text → Bool × Text
  | 0x2D :: rest => (true, rest)
  | 0x2B :: rest => (false, rest)
  | s => (false, s)

/-- An integer of 64 bits with an optional sign. -/
def integerOf (base : Nat) (s : Text) : Except NumberFault Int := do
  let (negative, digits) := signOf s
  let n ← naturalOf base digits
  if negative then
    if n ≤ pow2 63 then .ok (-(n : Int)) else .error .outOfRange
  else if n < pow2 63 then .ok n
  else .error .outOfRange

def exponentOf? : Text → Option Int
  | 0x2D :: ds => if digits? ds then some (-(ofExponentDigits ds : Int)) else none
  | 0x2B :: ds => if digits? ds then some (ofExponentDigits ds) else none
  | ds => if digits? ds then some (ofExponentDigits ds) else none
where
  digits? (ds : Text) : Bool := !ds.isEmpty && ds.all Text.isDigit

/-- The digits before and after a point, and what follows them. -/
def splitPoint (isDigit : UInt8 → Bool) (s : Text) : Text × Text × Text :=
  let rest := s.dropWhile isDigit
  match rest with
  | 0x2E :: more => (s.takeWhile isDigit, more.takeWhile isDigit, more.dropWhile isDigit)
  | _ => (s.takeWhile isDigit, [], rest)

/-- The nearest floating-point number to a decimal with an optional sign, point and exponent, and at
least one digit. -/
def decimalFloatOf (s : Text) : Except NumberFault Binary64 :=
  let (negative, s) := signOf s
  let (whole, places, s) := splitPoint Text.isDigit s
  let exponent? := match s with
    | [] => some 0
    | b :: rest => if b = 0x65 ∨ b = 0x45 then exponentOf? rest else none
  match exponent? with
  | none => .error .malformed
  | some exponent =>
    if whole.isEmpty && places.isEmpty then .error .malformed
    else match Binary64.ofNumeral? negative whole places exponent with
      | some x => .ok x
      | none => .error .outOfRange

def isHexDigit (b : UInt8) : Bool := (hexValue? b).isSome

def startsHex : Text → Bool
  | 0x30 :: b :: _ :: _ => b ||| 0x20 = 0x78
  | _ => false

/-- The mantissa and the power of two of a hexadecimal number after its announcement. -/
def hexParts? (s : Text) : Option (Nat × Int) := do
  let (whole, places, s) := splitPoint isHexDigit s
  if whole.isEmpty && places.isEmpty then none
  else
    let exponent ← match s with
      | b :: rest => if b ||| 0x20 = 0x70 then exponentOf? rest else none
      | [] => none
    let mantissa := (whole ++ places).foldl (fun acc b => acc * 16 + (hexValue? b).getD 0) 0
    some (mantissa, exponent - 4 * places.length)

/-- The nearest floating-point number to a mantissa times a power of two. -/
def scaledFloat (negative : Bool) (mantissa : Nat) (exponent : Int) : Except NumberFault Binary64 :=
  let magnitude := (Nat.log2 mantissa : Int) + exponent
  if mantissa = 0 || magnitude < -1100 then .ok (.zero negative)
  else if 1100 < magnitude then .error .outOfRange
  else
    let (num, den) := Binary64.unscale mantissa 1 (-exponent)
    match Binary64.ofFraction? negative num den with
    | some x => .ok x
    | none => .error .outOfRange

/-- The words that stand for what is not a finite number. -/
def specialOf? (s : Text) : Option Binary64 :=
  let lower := s.map fun b => if Text.isUpperLetter b then b + 0x20 else b
  let (negative, word) := signOf lower
  if lower = utf8 "nan" then some .notANumber
  else if word = utf8 "inf" ∨ word = utf8 "infinity" then some (.infinite negative)
  else none

/-- A floating-point number: a decimal, a hexadecimal number with a power of two, or a word.
Underscores may stand between digits. -/
def floatOf (s : Text) : Except NumberFault Binary64 :=
  match specialOf? s with
  | some x => .ok x
  | none =>
    let (negative, body) := signOf s
    let hex := startsHex body
    let digits := if hex then body.drop 2 else body
    if !underscoresFit (fun b => Text.isDigit b || (hex && isHexDigit b)) hex digits then
      .error .malformed
    else if hex then
      match hexParts? (dropUnderscores digits) with
      | some (mantissa, exponent) => scaledFloat negative mantissa exponent
      | none => .error .malformed
    else decimalFloatOf (dropUnderscores s)

def boolOf? (s : Text) : Option Bool :=
  if ["1", "t", "T", "TRUE", "true", "True"].any (utf8 · == s) then some true
  else if ["0", "f", "F", "FALSE", "false", "False"].any (utf8 · == s) then some false
  else none

end ServiceKit.Number
