import ServiceKit.Number.Digits
import ServiceKit.Yaml.Cursor

/-!
Scalars of a YAML stream: quoted, plain and block scalars from their first character to the place
after their last one.
-/

namespace ServiceKit.Yaml

open Scan

inductive ScalarStyle where
  | plain
  | singleQuoted
  | doubleQuoted
  | literal
  | folded
deriving DecidableEq, Repr, Inhabited

/-- A run of blanks and line breaks inside a scalar: the blanks before the first break, that break,
the breaks after it, and whether there is a break at all. -/
structure Gap where
  blanks : List Char := []
  lead : List Char := []
  trail : List Char := []
  broken : Bool := false

namespace Gap

/-- What a gap between two words becomes: one break is a space, more breaks stay without the
first. -/
def folded (g : Gap) : List Char :=
  if g.broken then
    if g.lead.head? == some '\n' then (if g.trail.isEmpty then [' '] else g.trail)
    else g.lead ++ g.trail
  else g.blanks

/-- A gap that goes on with a blank. -/
def withBlank (x : Char) (g : Gap) : Gap :=
  if g.broken then g else { g with blanks := g.blanks ++ [x] }

/-- A gap that goes on with a line break. -/
def withBreak (text : List Char) (g : Gap) : Gap :=
  if g.broken then { g with trail := g.trail ++ text }
  else { g with blanks := [], lead := g.lead ++ text, broken := true }

/-- A gap, with a bound on the steps. Inside a plain scalar a tab may not stand where indentation
is wanted: then `indent` is the wanted column and the start of the scalar. -/
def read (indent : Option (Nat × Mark)) : Nat → Gap → Scan Gap
  | 0, g => return g
  | fuel + 1, g => do
    let c ← get
    if isBlankChar c.here then
      if let some (column, start) := indent then
        if g.broken && c.mark.column < column && c.here == '\t' then
          fail start "found a tab character that violates indentation"
      skip
      need 1
      read indent fuel (g.withBlank c.here)
    else if isBreak c.here then
      need 2
      let text ← takeBreak
      need 1
      read indent fuel (g.withBreak text)
    else return g

end Gap

/-- The character that a letter after a backslash stands for. -/
def escapedChar? : Char → Option Char
  | '0' => some (Char.ofNat 0)
  | 'a' => some (Char.ofNat 0x07)
  | 'b' => some (Char.ofNat 0x08)
  | 't' => some '\t'
  | '\t' => some '\t'
  | 'n' => some '\n'
  | 'v' => some (Char.ofNat 0x0B)
  | 'f' => some (Char.ofNat 0x0C)
  | 'r' => some '\r'
  | 'e' => some (Char.ofNat 0x1B)
  | ' ' => some ' '
  | '"' => some '"'
  | '\'' => some '\''
  | '\\' => some '\\'
  | 'N' => some (Char.ofNat 0x85)
  | '_' => some (Char.ofNat 0xA0)
  | 'L' => some (Char.ofNat 0x2028)
  | 'P' => some (Char.ofNat 0x2029)
  | _ => none

/-- The number of hexadecimal digits after a letter. -/
def escapeWidth? : Char → Option Nat
  | 'x' => some 2
  | 'u' => some 4
  | 'U' => some 8
  | _ => none

def hexOf? (cs : List Char) : Option Nat :=
  cs.foldl (fun acc c => do
    let n ← acc
    let d ← if c.toNat < 0x80 then Number.hexValue? (UInt8.ofNat c.toNat) else none
    some (n * 16 + d)) (some 0)

/-- A character given by its number, at the place of its first digit. -/
def numberedChar (start : Mark) (width : Nat) : Scan Char := do
  need width
  let digits := (← get).rest.take width
  match if digits.length = width then hexOf? digits else none with
  | none => fail start "did not find expected hexdecimal number"
  | some n =>
    if (0xD800 ≤ n && n ≤ 0xDFFF) || 0x10FFFF < n then
      fail start "found invalid Unicode character escape code"
    skipMany width
    return Char.ofNat n

/-- The character that a backslash and the letter after it stand for, with the digits that the letter
asks for. -/
def escape (start : Mark) (letter : Char) : Scan Char :=
  match escapedChar? letter with
  | some x => do
    skipMany 2
    return x
  | none =>
    match escapeWidth? letter with
    | none => fail start "found unknown escape character"
    | some width => do
      skipMany 2
      numberedChar start width

/-- The part of a quoted scalar up to a blank, a line break or the closing quote. The result tells
whether it ends in an escaped line break. -/
def quotedWord (single : Bool) (start : Mark) : Nat → List Char → Scan (List Char × Bool)
  | 0, acc => return (acc, false)
  | fuel + 1, acc => do
    let x ← here
    let y ← look 1
    if isBlankOrEnd x then return (acc, false)
    else if x == (if single then '\'' else '"') then
      if single && y == '\'' then
        skipMany 2
        need 2
        quotedWord single start fuel ('\'' :: acc)
      else return (acc, false)
    else if !single && x == '\\' then
      if isBreak y then
        need 3
        skip
        let _ ← takeBreak
        return (acc, true)
      else
        let x ← escape start y
        need 2
        quotedWord single start fuel (x :: acc)
    else
      skip
      need 2
      quotedWord single start fuel (x :: acc)

/-- A quoted scalar after its opening quote. What is read so far is kept in reverse. -/
def quotedRest (single : Bool) (start : Mark) : Nat → List Char → Scan (List Char)
  | 0, _ => fail start "found unexpected end of stream"
  | fuel + 1, acc => do
    need 4
    if (← get).atAnyBoundary then fail start "found unexpected document indicator"
    if isEnd (← here) then fail start "found unexpected end of stream"
    let (acc, escaped) ← quotedWord single start (← steps) acc
    need 1
    if (← here) == (if single then '\'' else '"') then
      skip
      return acc.reverse
    else
      let g ← Gap.read none (← steps) { broken := escaped }
      quotedRest single start fuel (g.folded.reverse ++ acc)

/-- A quoted scalar, at its opening quote. -/
def quotedScalar (single : Bool) : Scan (List Char) := do
  let start ← mark
  skip
  quotedRest single start (← steps) []

/-- Characters that end a plain scalar inside a flow collection. -/
def isFlowDelimiter (c : Char) : Bool :=
  c == ',' || c == '?' || c == '[' || c == ']' || c == '{' || c == '}'

def plainEnds (inFlow : Bool) (c : Cursor) : Bool :=
  isBlankOrEnd c.here || (c.here == ':' && isBlankOrEnd (c.look 1))
    || (inFlow && isFlowDelimiter c.here)

/-- A word of a plain scalar, kept in reverse. -/
def plainWord (inFlow : Bool) : Nat → List Char → Scan (List Char)
  | 0, acc => return acc
  | fuel + 1, acc => do
    let c ← get
    if plainEnds inFlow c then return acc
    else
      skip
      need 2
      plainWord inFlow fuel (c.here :: acc)

/-- A plain scalar that was read so far, and where its last character ends. -/
structure PlainText where
  text : List Char
  stop : Mark
  /-- Was a line break passed after the last character? -/
  broken : Bool

/-- A plain scalar from a word on, after a gap that is kept only if a word follows. -/
def plainRest (inFlow : Bool) (indent : Nat) (start : Mark) :
    Nat → Gap → List Char → Mark → Scan PlainText
  | 0, g, acc, stop => return ⟨acc.reverse, stop, g.broken⟩
  | fuel + 1, g, acc, stop => do
    need 4
    let c ← get
    if c.atAnyBoundary || c.here == '#' then return ⟨acc.reverse, stop, g.broken⟩
    let ends := plainEnds inFlow c
    let acc ← plainWord inFlow (← steps) (if ends then acc else g.folded.reverse ++ acc)
    let after ← get
    let stop := if ends then stop else after.mark
    let g := if ends then g else {}
    if !(isBlankChar after.here || isBreak after.here) then return ⟨acc.reverse, stop, g.broken⟩
    need 1
    let g ← Gap.read (some (indent, start)) (← steps) g
    if !inFlow && (← mark).column < indent then return ⟨acc.reverse, stop, g.broken⟩
    plainRest inFlow indent start fuel g acc stop

/-- A plain scalar, at its first character. -/
def plainScalar (inFlow : Bool) (indent : Nat) : Scan PlainText := do
  let start ← mark
  plainRest inFlow indent start (← steps) {} [] start

/-- What becomes of the line breaks at the end of a block scalar. -/
inductive Chomping where
  | strip
  | clip
  | keep
deriving DecidableEq, Repr

def chomping : Scan Chomping := do
  let x ← here
  if x == '+' then
    skip
    return .keep
  else if x == '-' then
    skip
    return .strip
  else return .clip

/-- The digit that says how far a block scalar is indented, or zero. -/
def indentDigit (start : Mark) : Scan Nat := do
  let x ← here
  if !x.isDigit then return 0
  if x == '0' then fail start "found an indentation indicator equal to 0"
  skip
  return x.toNat - '0'.toNat

/-- The indicators after `|` or `>`: chomping and indentation in either order. -/
def blockHeader (start : Mark) : Scan (Chomping × Nat) := do
  need 1
  let x ← here
  if x == '+' || x == '-' then
    let chomp ← chomping
    need 1
    return (chomp, ← indentDigit start)
  else if x.isDigit then
    let n ← indentDigit start
    need 1
    return (← chomping, n)
  else return (.clip, 0)

/-- The indentation and the empty lines before a line of a block scalar. An indentation of zero is
still to be found out. -/
structure Indentation where
  indent : Nat
  widest : Nat := 0
  breaks : List Char := []

/-- Past spaces, as long as they are indentation. -/
def skipIndent (indent : Nat) : Nat → Scan Unit
  | 0 => return ()
  | fuel + 1 => do
    let c ← get
    if (indent = 0 ∨ c.mark.column < indent) ∧ c.here = ' ' then
      skip
      need 1
      skipIndent indent fuel

def blockBreaks (start : Mark) : Nat → Indentation → Scan Indentation
  | 0, i => return i
  | fuel + 1, i => do
    need 1
    skipIndent i.indent (← steps)
    let c ← get
    let i := { i with widest := max i.widest c.mark.column }
    if (i.indent = 0 ∨ c.mark.column < i.indent) ∧ c.here = '\t' then
      fail start "found a tab character where an indentation space is expected"
    if isBreak c.here then
      need 2
      let text ← takeBreak
      blockBreaks start fuel { i with breaks := i.breaks ++ text }
    else return i

/-- The indentation of a block scalar inside a collection of some indentation. -/
def Indentation.settled (i : Indentation) (parent : Int) : Indentation :=
  if i.indent = 0 then { i with indent := max (max i.widest (parent + 1).toNat) 1 } else i

/-- A block scalar that was read so far, in reverse. -/
structure BlockText where
  text : List Char := []
  /-- The break before the current line, and the empty lines after it. -/
  lead : List Char := []
  trail : List Char := []
  /-- Does the line before start with a blank? -/
  blank : Bool := false

/-- What stands between a line of a block scalar and the one before: a single break is folded into a
space, unless one of the lines starts with a blank. -/
def BlockText.joint (folds blank : Bool) (t : BlockText) : List Char :=
  if folds && !t.blank && !blank && t.lead.head? == some '\n' then
    (if t.trail.isEmpty then [' '] else [])
  else t.lead

/-- The lines of a block scalar of a known indentation. -/
def blockLines (folds : Bool) (indent : Nat) (start : Mark) : Nat → BlockText → Scan BlockText
  | 0, t => return t
  | fuel + 1, t => do
    let c ← get
    if c.mark.column = indent ∧ !isEnd c.here then
      let blank := isBlankChar c.here
      let between := t.joint folds blank ++ t.trail
      let line ← span fun x => !isBreakOrEnd x
      need 2
      let lead ← takeBreak
      let i ← blockBreaks start (← steps) { indent := indent }
      blockLines folds indent start fuel
        ⟨line.reverse ++ between.reverse ++ t.text, lead, i.breaks, blank⟩
    else return t

def blockScalar (folds : Bool) (parent : Int) : Scan (List Char) := do
  let start ← mark
  skip
  let (chomp, increment) ← blockHeader start
  skipWhile isBlankChar
  if (← here) == '#' then skipWhile fun x => !isBreakOrEnd x
  if !isBreakOrEnd (← here) then fail start "did not find expected comment or line break"
  skipBreak
  let indent := if increment = 0 then 0 else if 0 ≤ parent then parent.toNat + increment else increment
  let i ← blockBreaks start (← steps) { indent := indent }
  let i := i.settled parent
  need 1
  let t ← blockLines folds i.indent start (← steps) { trail := i.breaks }
  return t.text.reverse ++ match chomp with
    | .strip => []
    | .clip => t.lead
    | .keep => t.lead ++ t.trail

end ServiceKit.Yaml
