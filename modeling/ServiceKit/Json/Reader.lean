import ServiceKit.Json.Literal
import ServiceKit.Json.Value
import ServiceKit.Text.Glyph
import ServiceKit.Text.Quoted

/-!
Reading JSON documents. `Json.read` yields the value that a text holds, with members in document
order and numbers as literals, or the first byte that cannot stand where it is.
-/

namespace ServiceKit.Json

/-- A literal word, by the value that it stands for. -/
inductive Word where
  | null
  | bool (b : Bool)
deriving DecidableEq, Repr

def Word.text : Word → Text
  | null => utf8 "null"
  | bool true => utf8 "true"
  | bool false => utf8 "false"

/-- What a reader was looking for at a byte. -/
inductive Place where
  | value
  | key
  | afterKey
  | afterMember
  | afterElement
  | afterDocument
  | inString
  | inEscape
  | inHexEscape
  | inNumber
  | afterPoint
  | inExponent
  | inWord (word : Word) (expected : UInt8)
deriving DecidableEq, Repr

inductive ReadError where
  | invalid (b : UInt8) (place : Place)
  | tooDeep (b : UInt8)
  | unexpectedEnd
deriving DecidableEq, Repr

namespace Place

def phrase : Place → Text
  | value => utf8 "looking for beginning of value"
  | key => utf8 "looking for beginning of object key string"
  | afterKey => utf8 "after object key"
  | afterMember => utf8 "after object key:value pair"
  | afterElement => utf8 "after array element"
  | afterDocument => utf8 "after top-level value"
  | inString => utf8 "in string literal"
  | inEscape => utf8 "in string escape code"
  | inHexEscape => utf8 "in \\u hexadecimal character escape"
  | inNumber => utf8 "in numeric literal"
  | afterPoint => utf8 "after decimal point in numeric literal"
  | inExponent => utf8 "in exponent of numeric literal"
  | inWord word expected =>
    utf8 "in literal " ++ word.text ++ utf8 " (expecting " ++ Text.quotedByte expected ++ utf8 ")"

end Place

namespace ReadError

def message : ReadError → Text
  | invalid b place => utf8 "invalid character " ++ Text.quotedByte b ++ utf8 " " ++ place.phrase
  | tooDeep b => utf8 "invalid character " ++ Text.quotedByte b ++ utf8 " exceeded max depth"
  | unexpectedEnd => utf8 "unexpected end of JSON input"

end ReadError

/-- A part of a document, and what follows it. -/
abbrev Read (α : Type) := Except ReadError (α × Text)

/-- Space, tab, line feed and carriage return. -/
def isBlank (b : UInt8) : Bool := b == 0x20 || b == 0x09 || b == 0x0A || b == 0x0D

def skipBlanks (s : Text) : Text := s.dropWhile isBlank

/-- The error between two tokens, where blanks are passed over. -/
def refuse (place : Place) : Text → ReadError
  | [] => .unexpectedEnd
  | b :: _ => .invalid b place

/-- The error inside a token: at its end a text is taken to go on with a blank. -/
def refuseWithin (place : Place) : Text → ReadError
  | [] => .invalid 0x20 place
  | b :: _ => .invalid b place

/-- The rest of a literal word. -/
def readWord (word : Word) : Text → Text → Except ReadError Text
  | [], s => .ok s
  | b :: bs, c :: s => if b = c then readWord word bs s else .error (.invalid c (.inWord word b))
  | b :: _, [] => .error (.invalid 0x20 (.inWord word b))

/-- Digits, of which there is at least one. -/
def readDigits (place : Place) (s : Text) : Read Text :=
  match s.takeWhile Text.isDigit with
  | [] => .error (refuseWithin place s)
  | ds => .ok (ds, s.dropWhile Text.isDigit)

/-- The digits before the point: a zero stands alone. -/
def readWhole : Text → Read Text
  | 0x30 :: rest => .ok ([0x30], rest)
  | s => readDigits .inNumber s

def readFraction : Text → Read (Option Text)
  | 0x2E :: rest =>
    match readDigits .afterPoint rest with
    | .ok (ds, rest) => .ok (some ds, rest)
    | .error e => .error e
  | s => .ok (none, s)

/-- The mark of an exponent with its sign. -/
def exponentMark : Text → Option (Text × Text)
  | b :: rest =>
    if b = 0x65 ∨ b = 0x45 then
      match rest with
      | 0x2B :: rest => some ([b, 0x2B], rest)
      | 0x2D :: rest => some ([b, 0x2D], rest)
      | rest => some ([b], rest)
    else none
  | [] => none

def readExponent (s : Text) : Read (Option (Text × Text)) :=
  match exponentMark s with
  | none => .ok (none, s)
  | some (mark, rest) =>
    match readDigits .inExponent rest with
    | .ok (ds, rest) => .ok (some (mark, ds), rest)
    | .error e => .error e

/-- A number without its sign. -/
def readMagnitude (negative : Bool) (s : Text) : Except ReadError (Literal × Text) := do
  let (whole, s) ← readWhole s
  let (fraction, s) ← readFraction s
  let (exponent, s) ← readExponent s
  .ok (⟨negative, whole, fraction, exponent⟩, s)

/-- A part of a string literal: a byte, or a UTF-16 unit given by its number. -/
inductive Piece where
  | byte (b : UInt8)
  | unit (u : Nat)
deriving DecidableEq, Repr

/-- The byte that a letter after a backslash stands for. -/
def escapeByte? : UInt8 → Option UInt8
  | 0x22 => some 0x22
  | 0x5C => some 0x5C
  | 0x2F => some 0x2F
  | 0x62 => some 0x08
  | 0x66 => some 0x0C
  | 0x6E => some 0x0A
  | 0x72 => some 0x0D
  | 0x74 => some 0x09
  | _ => none

/-- Where in a string literal a reader is. -/
inductive StringMode where
  | plain
  | escape
  | hex (left : Nat) (unit : Nat)

/-- A string literal up to its closing quote. The parts read so far are kept in reverse. -/
def readPieces : StringMode → List Piece → Text → Read (List Piece)
  | .plain, _, [] => .error .unexpectedEnd
  | .plain, acc, b :: s =>
    if b = 0x22 then .ok (acc.reverse, s)
    else if b = 0x5C then readPieces .escape acc s
    else if b < 0x20 then .error (.invalid b .inString)
    else readPieces .plain (.byte b :: acc) s
  | .escape, _, [] => .error (.invalid 0x20 .inEscape)
  | .escape, acc, b :: s =>
    if b = 0x75 then readPieces (.hex 3 0) acc s
    else match escapeByte? b with
      | some c => readPieces .plain (.byte c :: acc) s
      | none => .error (.invalid b .inEscape)
  | .hex _ _, _, [] => .error (.invalid 0x20 .inHexEscape)
  | .hex left u, acc, b :: s =>
    match Number.hexValue? b with
    | none => .error (.invalid b .inHexEscape)
    | some d =>
      match left with
      | 0 => readPieces .plain (.unit (u * 16 + d) :: acc) s
      | left + 1 => readPieces (.hex left (u * 16 + d)) acc s

def isHighSurrogate (u : Nat) : Bool := 0xD800 ≤ u && u < 0xDC00

def isLowSurrogate (u : Nat) : Bool := 0xDC00 ≤ u && u < 0xE000

/-- The character of a unit that is not half of a pair. -/
def unitChar (u : Nat) : Char :=
  if isHighSurrogate u || isLowSurrogate u then Glyph.replacement else Char.ofNat u

def pairChar (u v : Nat) : Char := Char.ofNat (0x10000 + (u - 0xD800) * 0x400 + (v - 0xDC00))

/-- The bytes that the parts of a string literal stand for. Two units that form a pair are one
character. -/
def joinPieces : List Piece → Text
  | [] => []
  | .byte b :: ps => b :: joinPieces ps
  | .unit u :: .unit v :: ps =>
    if isHighSurrogate u && isLowSurrogate v then
      String.utf8EncodeChar (pairChar u v) ++ joinPieces ps
    else String.utf8EncodeChar (unitChar u) ++ joinPieces (.unit v :: ps)
  | .unit u :: ps => String.utf8EncodeChar (unitChar u) ++ joinPieces ps

/-- A string after its opening quote, with U+FFFD for stray bytes. -/
def readString (s : Text) : Read Text :=
  match readPieces .plain [] s with
  | .ok (ps, rest) => .ok ((joinPieces ps).sanitize, rest)
  | .error e => .error e

mutual

/-- A value, with a bound on the steps and on the nesting. -/
def readValue : Nat → Nat → Text → Read (Json Literal)
  | 0, _, _ => .error .unexpectedEnd
  | fuel + 1, depth, s =>
    match skipBlanks s with
    | [] => .error .unexpectedEnd
    | b :: rest =>
      if b = 0x22 then
        match readString rest with
        | .ok (t, rest) => .ok (.string t, rest)
        | .error e => .error e
      else if b = 0x5B then
        match depth with
        | 0 => .error (.tooDeep b)
        | depth + 1 =>
          match skipBlanks rest with
          | 0x5D :: rest => .ok (.array [], rest)
          | rest =>
            match readElements fuel depth [] rest with
            | .ok (xs, rest) => .ok (.array xs, rest)
            | .error e => .error e
      else if b = 0x7B then
        match depth with
        | 0 => .error (.tooDeep b)
        | depth + 1 =>
          match skipBlanks rest with
          | 0x7D :: rest => .ok (.object [], rest)
          | rest =>
            match readMembers fuel depth [] rest with
            | .ok (ms, rest) => .ok (.object ms, rest)
            | .error e => .error e
      else if b = 0x2D then
        match readMagnitude true rest with
        | .ok (l, rest) => .ok (.number l, rest)
        | .error e => .error e
      else if Text.isDigit b then
        match readMagnitude false (b :: rest) with
        | .ok (l, rest) => .ok (.number l, rest)
        | .error e => .error e
      else if b = 0x74 then
        match readWord (.bool true) (utf8 "rue") rest with
        | .ok rest => .ok (.bool true, rest)
        | .error e => .error e
      else if b = 0x66 then
        match readWord (.bool false) (utf8 "alse") rest with
        | .ok rest => .ok (.bool false, rest)
        | .error e => .error e
      else if b = 0x6E then
        match readWord .null (utf8 "ull") rest with
        | .ok rest => .ok (.null, rest)
        | .error e => .error e
      else .error (.invalid b .value)

/-- The elements of an array from one of them on, up to the closing bracket. -/
def readElements : Nat → Nat → List (Json Literal) → Text → Read (List (Json Literal))
  | 0, _, _, _ => .error .unexpectedEnd
  | fuel + 1, depth, acc, s =>
    match readValue fuel depth s with
    | .error e => .error e
    | .ok (x, rest) =>
      match skipBlanks rest with
      | 0x2C :: rest => readElements fuel depth (x :: acc) rest
      | 0x5D :: rest => .ok ((x :: acc).reverse, rest)
      | rest => .error (refuse .afterElement rest)

/-- The members of an object from one of them on, up to the closing brace. -/
def readMembers :
    Nat → Nat → List (Text × Json Literal) → Text → Read (List (Text × Json Literal))
  | 0, _, _, _ => .error .unexpectedEnd
  | fuel + 1, depth, acc, s =>
    match skipBlanks s with
    | 0x22 :: rest =>
      match readString rest with
      | .error e => .error e
      | .ok (k, rest) =>
        match skipBlanks rest with
        | 0x3A :: rest =>
          match readValue fuel depth rest with
          | .error e => .error e
          | .ok (x, rest) =>
            match skipBlanks rest with
            | 0x2C :: rest => readMembers fuel depth ((k, x) :: acc) rest
            | 0x7D :: rest => .ok (((k, x) :: acc).reverse, rest)
            | rest => .error (refuse .afterMember rest)
        | rest => .error (refuse .afterKey rest)
    | rest => .error (refuse .key rest)

end

/-- The deepest nesting of arrays and objects that is read. -/
def maxDepth : Nat := 10000

/-- Two steps a byte are enough. -/
def stepBound (s : Text) : Nat := 2 * s.length + 2

def read (s : Text) : Except ReadError (Json Literal) :=
  match readValue (stepBound s) maxDepth s with
  | .error e => .error e
  | .ok (x, rest) =>
    match skipBlanks rest with
    | [] => .ok x
    | b :: _ => .error (.invalid b .afterDocument)

end ServiceKit.Json
