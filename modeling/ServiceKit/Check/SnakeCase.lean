import ServiceKit.Text.Glyph

/-!
Names in lower case with underscores.
-/

namespace ServiceKit.Text

/-- A capital of ASCII becomes an underscore and its small letter. -/
def snakeChar (c : Char) : List Char :=
  if 'A' ≤ c ∧ c ≤ 'Z' then ['_', Char.ofNat (c.toNat + 32)] else [c]

/-- The first character gets no underscore. -/
def snakeHead (c : Char) : List Char :=
  if 'A' ≤ c ∧ c ≤ 'Z' then [Char.ofNat (c.toNat + 32)] else [c]

def snakeChars : List Char → List Char
  | [] => []
  | c :: cs => snakeHead c ++ cs.flatMap snakeChar

/-- A name in lower case, with an underscore before each capital but a leading one. -/
def snakeCase (s : Text) : Text := ofChars (snakeChars s.chars)

end ServiceKit.Text
