import ServiceKit.Yaml.Source

/-!
Places in a YAML stream, and steps of reading from one place to the next. A step says how far it looks
ahead, as that decides what is loaded and so whether something wrong further on is met.
-/

namespace ServiceKit.Yaml

/-! ### Classes of characters -/

/-- What is read past the end of a stream. -/
def endChar : Char := Char.ofNat 0

def isEnd (c : Char) : Bool := c == endChar

def isBlankChar (c : Char) : Bool := c == ' ' || c == '\t'

def isBreak (c : Char) : Bool :=
  c == '\n' || c == '\r' || c.toNat == 0x85 || c.toNat == 0x2028 || c.toNat == 0x2029

def isBreakOrEnd (c : Char) : Bool := isBreak c || isEnd c

def isBlankOrEnd (c : Char) : Bool := isBlankChar c || isBreakOrEnd c

/-- Letters, digits, `_` and `-`. -/
def isWordChar (c : Char) : Bool := c.isAlphanum || c == '_' || c == '-'

def byteOrderMark : Char := Char.ofNat 0xFEFF

/-! ### Places -/

/-- A place in a stream: what follows it, its position, and what is loaded there. -/
structure Cursor where
  rest : List Char
  /-- The number of characters of the whole stream, a bound on every run of them. -/
  size : Nat
  mark : Mark := {}
  /-- The line breaks since the last character that is not blank. -/
  newlines : Nat := 0
  /-- The number of characters that are loaded, and the numbers at the ends of later windows. -/
  loaded : Nat := 0
  ends : List Nat
  fault : Option Problem
  /-- Does what is loaded start with a byte order mark? -/
  marked : Bool := false

namespace Cursor

def ofStream (s : Stream) : Cursor := ⟨s.chars, s.size, {}, 0, 0, s.ends, s.fault, false⟩

def look (n : Nat) (c : Cursor) : Char := c.rest[n]?.getD endChar

def here (c : Cursor) : Char := c.look 0

/-- Past one character that is not a line break. -/
def skip (c : Cursor) : Cursor :=
  { c with
    rest := c.rest.tail
    mark := { c.mark with index := c.mark.index + 1, column := c.mark.column + 1 }
    newlines := if isBlankChar c.here then c.newlines else 0 }

/-- Past some characters that are not line breaks. -/
def skipMany : Nat → Cursor → Cursor
  | 0, c => c
  | n + 1, c => skipMany n c.skip

/-- The number of characters of the line break at a place: a carriage return and a line feed are one
line break. -/
def breakWidth (c : Cursor) : Nat :=
  if c.here == '\r' && c.look 1 == '\n' then 2 else if isBreak c.here then 1 else 0

/-- Past one line break, if there is one. -/
def skipLine (c : Cursor) : Cursor :=
  if c.breakWidth = 0 then c
  else
    { c with
      rest := c.rest.drop c.breakWidth
      mark := ⟨c.mark.index + c.breakWidth, c.mark.line + 1, 0⟩
      newlines := c.newlines + 1 }

/-- The text of a line break: a line feed, unless it is one of the two separators of Unicode. -/
def breakText (c : Cursor) : List Char :=
  if c.here.toNat == 0x2028 || c.here.toNat == 0x2029 then [c.here]
  else if isBreak c.here then ['\n'] else []

/-- Is there a line of three equal characters that stands for a document boundary? -/
def atBoundary (x : Char) (c : Cursor) : Bool :=
  c.mark.column == 0 && c.look 0 == x && c.look 1 == x && c.look 2 == x && isBlankOrEnd (c.look 3)

def atAnyBoundary (c : Cursor) : Bool := c.atBoundary '-' || c.atBoundary '.'

/-! ### Loading -/

/-- Windows are loaded until a number of characters is there or no window is left. -/
def loadTo (wanted : Nat) : Nat → List Nat → Nat × List Nat
  | loaded, [] => (loaded, [])
  | loaded, e :: ends => if wanted ≤ loaded then (loaded, e :: ends) else loadTo wanted e ends

/-- Some characters ahead are loaded, and what is loaded then starts at this place. The end of a
stream may be read again and again; a window that does not load is a problem, but the characters
before the problem are there from then on. -/
def load (n : Nat) (c : Cursor) : Option Problem × Cursor :=
  let wanted := c.mark.index + n
  if wanted ≤ c.loaded then (none, c)
  else
    let (loaded, ends) := loadTo wanted c.loaded c.ends
    let c := { c with ends := ends, marked := c.here == byteOrderMark }
    if wanted ≤ loaded then (none, { c with loaded := loaded })
    else match c.fault with
      | some p => (some p, { c with loaded := c.size })
      | none => (none, { c with loaded := loaded + 1 })

end Cursor

/-! ### Steps -/

/-- A step of reading. When it fails, what it has read stays read. -/
abbrev Scan := EStateM Problem Cursor

namespace Scan

def need (n : Nat) : Scan Unit := fun c =>
  match c.load n with
  | (none, c) => .ok () c
  | (some p, c) => .error p c

def here : Scan Char := return (← get).here

def look (n : Nat) : Scan Char := return (← get).look n

def mark : Scan Mark := return (← get).mark

def skip : Scan Unit := modify Cursor.skip

def skipMany (n : Nat) : Scan Unit := modify (Cursor.skipMany n)

/-- Past a line break, whose text is the result. -/
def takeBreak : Scan (List Char) := do
  let c ← get
  set c.skipLine
  return c.breakText

/-- Past a line break, if there is one. -/
def skipBreak : Scan Unit := do
  if isBreak (← here) then
    need 2
    modify Cursor.skipLine

/-- A problem at the current place, about a token that starts at a mark. -/
def fail {α : Type} (start : Mark) (what : String) : Scan α := do
  throw (.inToken start (← mark) what)

/-- More steps than a run of characters can take. -/
def steps : Scan Nat := return (← get).size + 1

def spanFrom (p : Char → Bool) : Nat → List Char → Scan (List Char)
  | 0, acc => return acc.reverse
  | fuel + 1, acc => do
    let x ← here
    if p x then
      skip
      need 1
      spanFrom p fuel (x :: acc)
    else return acc.reverse

/-- Past the characters of a class, which are the result. No line break is in the class. -/
def span (p : Char → Bool) : Scan (List Char) := do
  need 1
  spanFrom p (← steps) []

def skipWhile (p : Char → Bool) : Scan Unit := do
  let _ ← span p

end Scan

end ServiceKit.Yaml
