import ServiceKit.Text.Keyed

/-!
References to variables inside values, and escaped characters. A reference is a dollar sign with a
name in capital letters, in braces or not; a backslash in front makes it a plain dollar sign.
-/

namespace ServiceKit.Config

def isNameByte (b : UInt8) : Bool := Text.isUpperLetter b || Text.isDigit b || b == 0x5F

/-- What may follow a dollar sign: the text that belongs to the reference, its name, which may be
empty, and the rest. -/
structure Reference where
  text : Text
  name : Text
  rest : Text

namespace Reference

/-- A byte that may be there or not. -/
def optional (b : UInt8) : Text → Text × Text
  | c :: rest => if b = c then ([b], rest) else ([], c :: rest)
  | [] => ([], [])

/-- The reference at the start of what follows a dollar sign. With `parens`, an opening parenthesis
may come first. -/
def ofText (parens : Bool) (s : Text) : Reference :=
  let (paren, s) := if parens then optional 0x28 s else ([], s)
  let (left, s) := optional 0x7B s
  let name := s.takeWhile isNameByte
  let (right, s) := optional 0x7D (s.dropWhile isNameByte)
  ⟨paren ++ left ++ name ++ right, name, s⟩

/-- Every reference in a text changed into the value of its name; a dollar sign without a name
stays. -/
def expand (parens : Bool) (value : Text → Text) : Nat → Text → Text
  | 0, s => s
  | _ + 1, [] => []
  | fuel + 1, b :: rest =>
    if b = 0x5C && rest.head? = some 0x24 then
      let r := ofText parens (rest.drop 1)
      0x24 :: r.text ++ expand parens value fuel r.rest
    else if b = 0x24 then
      let r := ofText parens rest
      (if r.name.isEmpty then 0x24 :: r.text else value r.name) ++ expand parens value fuel r.rest
    else b :: expand parens value fuel rest

end Reference

/-- Line breaks that are written as a backslash and a letter. A pair of a backslash and another
character is passed over as a whole. -/
def breakEscapes : Text → Text
  | 0x5C :: b :: rest =>
    if b = 0x6E then 0x0A :: breakEscapes rest
    else if b = 0x72 then 0x0D :: breakEscapes rest
    else 0x5C :: b :: breakEscapes rest
  | b :: rest => b :: breakEscapes rest
  | [] => []

/-- A backslash is dropped before any character but a dollar sign. -/
def dropEscapes : Text → Text
  | 0x5C :: b :: rest =>
    if b = 0x24 then 0x5C :: b :: dropEscapes rest else b :: dropEscapes rest
  | b :: rest => b :: dropEscapes rest
  | [] => []

end ServiceKit.Config
