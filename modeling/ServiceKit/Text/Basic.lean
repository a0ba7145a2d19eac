/-!
Texts as byte strings, and the operations on them that look at bytes only.
-/

namespace ServiceKit

/-- A text is a string of bytes. It need not be well-formed UTF-8: what arrives on a stream, in a
file or in the environment is kept byte for byte. -/
abbrev Text := List UInt8

def utf8 (s : String) : Text := s.toUTF8.data.toList

namespace Text

def ofChars (cs : List Char) : Text := cs.flatMap String.utf8EncodeChar

/-- Lexicographic order of bytes, equality included. -/
def le : Text → Text → Bool
  | [], _ => true
  | _ :: _, [] => false
  | a :: s, b :: t => if a < b then true else if b < a then false else le s t

/-- Lexicographic order of bytes, equality excluded. -/
def lt (s t : Text) : Bool := !le t s

/-- The pieces between the occurrences of one byte; always at least one piece. -/
def split (sep : UInt8) : Text → List Text
  | [] => [[]]
  | b :: rest =>
    if b = sep then [] :: split sep rest
    else match split sep rest with
      | [] => [[b]]
      | w :: ws => (b :: w) :: ws

/-- Pieces put together with a text between neighbours. -/
def join (sep : Text) : List Text → Text
  | [] => []
  | [w] => w
  | w :: ws => w ++ sep ++ join sep ws

/-- What follows a leading text, if the text leads. -/
def dropLead? : Text → Text → Option Text
  | [], rest => some rest
  | _ :: _, [] => none
  | a :: lead, b :: rest => if a = b then dropLead? lead rest else none

/-- The text before the first occurrence of a byte, and the text after it. -/
def cut? (sep : UInt8) : Text → Option (Text × Text)
  | [] => none
  | b :: rest =>
    if b = sep then some ([], rest)
    else (cut? sep rest).map fun (w, r) => (b :: w, r)

/-- Every occurrence of one byte changed into another. -/
def swap (old new : UInt8) (s : Text) : Text := s.map fun b => if b = old then new else b

def startsWith (s lead : Text) : Bool := (dropLead? lead s).isSome

/-- Does a text occur inside another one? -/
def hasInfix (needle : Text) : Text → Bool
  | [] => needle.isEmpty
  | b :: rest => startsWith (b :: rest) needle || hasInfix needle rest

/-- The bytes of the part from the end that satisfy a test are dropped. -/
def dropTailWhile (p : UInt8 → Bool) (s : Text) : Text := (s.reverse.dropWhile p).reverse

def isDigit (b : UInt8) : Bool := 0x30 ≤ b && b ≤ 0x39

def isUpperLetter (b : UInt8) : Bool := 0x41 ≤ b && b ≤ 0x5A

def isLowerLetter (b : UInt8) : Bool := 0x61 ≤ b && b ≤ 0x7A

def isLetter (b : UInt8) : Bool := isUpperLetter b || isLowerLetter b

end Text

end ServiceKit
