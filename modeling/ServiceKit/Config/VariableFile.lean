import ServiceKit.Config.Reference
import ServiceKit.Text.Quoted
import ServiceKit.Text.Space

/-!
Files of variables: assignments by an equals sign or a colon, one a line, with comments and quoted
values. A file with a mistake gives no variables at all.
-/

namespace ServiceKit.Config.VariableFile

inductive Mistake where
  | unexpected (byte : UInt8) (near : Text)
  | noStatement
  | unterminated (line : Text)
deriving DecidableEq, Repr

namespace Mistake

def message : Mistake → Text
  | unexpected b near =>
    utf8 "unexpected character " ++ Text.quoted (Text.ofChars [Char.ofNat b.toNat])
      ++ utf8 " in variable name near " ++ Text.quoted near
  | noStatement => utf8 "zero length string"
  | unterminated line => utf8 "unterminated quoted value " ++ line

end Mistake

/-! ### Characters -/

/-- White space inside a line. -/
def isBlankPoint (n : Nat) : Bool :=
  n == 0x09 || n == 0x0B || n == 0x0C || n == 0x0D || n == 0x20 || n == 0x85 || n == 0xA0

def isBlankGlyph : Glyph → Bool
  | .char c => isBlankPoint c.toNat
  | .stray _ => false

/-- A text without the part at its start that satisfies a test. -/
def dropStart (p : Glyph → Bool) (s : Text) : Text := Text.ofGlyphs (s.glyphs.dropWhile p)

def startsBlank (s : Text) : Bool := (s.glyphs.head?.map isBlankGlyph).getD false

/-- May a byte, read as a code point, stand in a name? Letters and numbers of the first 256 code
points, the point and the underscore may. -/
def isNamePoint (b : UInt8) : Bool :=
  Text.isLetter b || Text.isDigit b || b == 0x2E || b == 0x5F || b == 0xAA || b == 0xB5 || b == 0xBA
    || b == 0xB2 || b == 0xB3 || b == 0xB9 || (0xBC ≤ b && b ≤ 0xBE)
    || (0xC0 ≤ b && b != 0xD7 && b != 0xF7)

/-! ### Statements -/

/-- Carriage returns before line feeds are dropped. -/
def unixLines : Text → Text
  | 0x0D :: 0x0A :: rest => 0x0A :: unixLines rest
  | b :: rest => b :: unixLines rest
  | [] => []

/-- The text from the next statement on: white space and comments are passed over. -/
def nextStatement : Nat → Text → Text
  | 0, s => s
  | fuel + 1, s =>
    match dropStart Text.isSpaceGlyph s with
    | 0x23 :: rest => nextStatement fuel (rest.dropWhile (· != 0x0A))
    | s => s

/-- A statement without the word that marks it for other programs. -/
def dropExport (s : Text) : Text :=
  match Text.dropLead? (utf8 "export") s with
  | some rest => if startsBlank rest then dropStart isBlankGlyph rest else s
  | none => s

/-- The text up to the sign after the name, and the text after the sign: nothing if there is no sign
up to the end, and the byte that cannot stand in a name if one comes first. -/
def splitName : Text → Except UInt8 (Option (Text × Text))
  | [] => .ok none
  | b :: rest =>
    if b = 0x3D || b = 0x3A then .ok (some ([], rest))
    else if isBlankPoint b.toNat || isNamePoint b then do
      .ok ((← splitName rest).map fun (name, after) => (b :: name, after))
    else .error b

/-- The name of a statement and what follows its sign. A statement without a sign has no name. -/
def nameOf (s : Text) : Except Mistake (Text × Text) :=
  let s := dropExport s
  match splitName s with
  | .error b => .error (.unexpected b s)
  | .ok none => if s.isEmpty then .error .noStatement else .ok ([], dropStart isBlankGlyph s)
  | .ok (some (name, rest)) =>
    .ok (Text.ofGlyphs (Text.dropEndWhile Text.isSpaceGlyph name.glyphs),
      dropStart isBlankGlyph rest)

/-! ### Values -/

/-- The part of a line before a comment, which starts after a blank. -/
def beforeComment (last : Option Glyph) : List Glyph → List Glyph
  | [] => []
  | g :: rest =>
    if g = .char '#' && (last.map isBlankGlyph).getD false then []
    else g :: beforeComment (some g) rest

/-- References name variables of the same file. -/
def expand (known : Keyed Text) (s : Text) : Text :=
  Reference.expand true (fun name => (Keyed.find? name known).getD []) (s.length + 1) s

def isLineEnd (b : UInt8) : Bool := b == 0x0A || b == 0x0D

/-- A value without quotes, up to the end of its line. -/
def plainValue (known : Keyed Text) (s : Text) : Text × Text :=
  let line := beforeComment none (Text.glyphs (s.takeWhile (!isLineEnd ·)))
  let value := Text.dropEndWhile isBlankGlyph (line.dropWhile isBlankGlyph)
  (expand known (Text.ofChars (value.map Glyph.shown)), s.dropWhile (!isLineEnd ·))

/-- The text up to a closing quote that no backslash stands before, and the text after it. -/
def closing? (quote : UInt8) (last : UInt8) : Text → Option (Text × Text)
  | [] => none
  | b :: rest =>
    if b = quote && last != 0x5C then some ([], rest)
    else (closing? quote b rest).map fun (inside, after) => (b :: inside, after)

/-- The text between quotes; quotes at its ends belong to the outside. -/
def insideQuotes (quote : UInt8) (s : Text) : Text :=
  Text.dropTailWhile (· == quote) (s.dropWhile (· == quote))

def valueOf (known : Keyed Text) (s : Text) : Except Mistake (Text × Text) :=
  match s with
  | [] => .ok ([], [])
  | quote :: rest =>
    if quote = 0x22 || quote = 0x27 then
      match closing? quote quote rest with
      | none => .error (.unterminated (s.takeWhile (· != 0x0A)))
      | some (inside, after) =>
        let inside := insideQuotes quote inside
        .ok (if quote = 0x22 then expand known (dropEscapes (breakEscapes inside)) else inside, after)
    else .ok (plainValue known s)

/-- The variables of a text, added to those that are known. -/
def statements : Nat → Keyed Text → Text → Except Mistake (Keyed Text)
  | 0, known, _ => .ok known
  | fuel + 1, known, s =>
    match nextStatement (s.length + 1) s with
    | [] => .ok known
    | s => do
      let (name, rest) ← nameOf s
      let (value, rest) ← valueOf known rest
      statements fuel (Keyed.put name value known) rest

/-- The variables of a file; of several values of one name the last counts. -/
def read (s : Text) : Except Mistake (Keyed Text) :=
  let s := unixLines s
  statements (s.length + 1) [] s

end ServiceKit.Config.VariableFile
