import ServiceKit.Check.SnakeCase
import ServiceKit.Number.Digits

/-!
Tags of record fields: names, each with a quoted text after a colon, divided by spaces.
-/

namespace ServiceKit.Check

/-- The character or byte of an escape in a quoted text, and what follows it. -/
def unescape? : Text → Option (Text × Text)
  | 0x61 :: r => some ([0x07], r)
  | 0x62 :: r => some ([0x08], r)
  | 0x66 :: r => some ([0x0C], r)
  | 0x6E :: r => some ([0x0A], r)
  | 0x72 :: r => some ([0x0D], r)
  | 0x74 :: r => some ([0x09], r)
  | 0x76 :: r => some ([0x0B], r)
  | 0x5C :: r => some ([0x5C], r)
  | 0x22 :: r => some ([0x22], r)
  | 0x78 :: r => do
    let n ← hex? 2 r
    some ([UInt8.ofNat n], r.drop 2)
  | 0x75 :: r => do point? (← hex? 4 r) (r.drop 4)
  | 0x55 :: r => do point? (← hex? 8 r) (r.drop 8)
  | a :: b :: c :: r =>
    let octal (d : UInt8) : Bool := 0x30 ≤ d && d ≤ 0x37
    if octal a && octal b && octal c then
      let n := (a.toNat - 0x30) * 64 + (b.toNat - 0x30) * 8 + (c.toNat - 0x30)
      if n < 256 then some ([UInt8.ofNat n], r) else none
    else none
  | _ => none
where
  hex? (width : Nat) (r : Text) : Option Nat :=
    let ds := r.take width
    if ds.length < width then none
    else ds.foldl (fun acc b => do some ((← acc) * 16 + (← Number.hexValue? b))) (some 0)
  point? (n : Nat) (r : Text) : Option (Text × Text) :=
    if n.isValidChar then some (String.utf8EncodeChar (Char.ofNat n), r) else none

def unquote? (fuel : Nat) (s : Text) : Option Text :=
  match fuel, s with
  | _, [] => some []
  | 0, _ => none
  | fuel + 1, b :: rest =>
    if b = 0x0A ∨ b = 0x22 then none
    else if b = 0x5C then do
      let (bytes, rest) ← unescape? rest
      some (bytes ++ (← unquote? fuel rest))
    else do
      let g := Glyph.first b rest
      some (String.utf8EncodeChar g.shown ++ (← unquote? fuel (rest.drop (g.width - 1))))

/-- The length of a quoted text up to its closing quote. -/
def quotedLength? : Nat → Text → Option Nat
  | _, [] => none
  | n, 0x22 :: _ => some n
  | _, [0x5C] => none
  | n, 0x5C :: _ :: rest => quotedLength? (n + 2) rest
  | n, _ :: rest => quotedLength? (n + 1) rest

/-- The text of a name in a tag, nothing if the name or its text is missing. What follows a
part that is not well-formed is not looked at. -/
def tagTextFrom (name : Text) : Nat → Text → Text
  | 0, _ => []
  | fuel + 1, s =>
    let s := s.dropWhile (· == 0x20)
    let isNameByte (b : UInt8) : Bool := 0x20 < b && b != 0x3A && b != 0x22 && b != 0x7F
    let found := s.takeWhile isNameByte
    match found, s.dropWhile isNameByte with
    | _ :: _, 0x3A :: 0x22 :: rest =>
      match quotedLength? 0 rest with
      | none => []
      | some n =>
        if found = name then (unquote? (n + 1) (rest.take n)).getD []
        else tagTextFrom name fuel (rest.drop (n + 1))
    | _, _ => []

def tagText (name : String) (s : Text) : Text := tagTextFrom (utf8 name) (s.length + 1) s

def firstPart (s : Text) : Text := s.takeWhile (· != 0x2C)

/-- A field as the type of its record declares it. -/
structure Field where
  name : Text
  tag : Text := []
  /-- The package that alone may use the field, empty for a field that all may use. -/
  home : Text := []
  /-- Has the field no name but that of its type? -/
  embedded : Bool := false
deriving DecidableEq, Repr

namespace Field

/-- The name by which a field is known outside the program: the one that its tag gives for
settings, or for documents, or the field's own name in lower case. A dash hides the field from one
kind of reader, and then its own name is taken. -/
def publicName (f : Field) : Text :=
  let settings := firstPart (tagText "mapstructure" f.tag)
  let documents := firstPart (tagText "json" f.tag)
  if settings = [0x2D] then f.name.snakeCase
  else if !settings.isEmpty then settings
  else if documents = [0x2D] ∨ documents.isEmpty then f.name.snakeCase
  else documents

/-- Is a field out of reach? What an embedded record brings along never is. -/
def isPrivate (f : Field) : Bool := !f.home.isEmpty && !f.embedded

end Field

end ServiceKit.Check
