import ServiceKit.Yaml.Token

/-!
Tokens about nodes and documents rather than their content: directives, anchors, aliases and tags.
-/

namespace ServiceKit.Yaml

open Scan

/-! ### Tags -/

/-- The octet at a place, written as a percent sign and two digits. -/
def octet? (c : Cursor) : Option Nat :=
  let digits := (c.rest.drop 1).take 2
  if c.here == '%' && digits.length == 2 then hexOf? digits else none

/-- Percent-encoded octets of one character: as many as the first one announces. -/
def escapedOctets (start : Mark) : Nat → Text → Scan Text
  | 0, acc => return acc
  | left + 1, acc => do
    need 3
    match octet? (← get) with
    | none => fail start "did not find URI escaped octet"
    | some n =>
      let b := UInt8.ofNat n
      if (Glyph.continuation? b).isNone then fail start "found an incorrect trailing UTF-8 octet"
      skipMany 3
      escapedOctets start left (acc ++ [b])

def escapedChar (start : Mark) : Scan Text := do
  need 3
  match octet? (← get) with
  | none => fail start "did not find URI escaped octet"
  | some n =>
    match leadWidth? (UInt8.ofNat n) with
    | none => fail start "found an incorrect leading UTF-8 octet"
    | some (width, _) =>
      skipMany 3
      escapedOctets start (width - 1) [UInt8.ofNat n]

/-- The characters of a tag apart from letters, digits, `_` and `-`. -/
def isTagMark (c : Char) : Bool :=
  [';', '/', '?', ':', '@', '&', '=', '+', '$', ',', '.', '!', '~', '*', '\'', '(', ')', '[', ']',
    '%'].contains c

/-- The characters of a tag. Escaped octets are taken as they are. -/
def tagChars (start : Mark) : Nat → Text → Scan Text
  | 0, acc => return acc
  | fuel + 1, acc => do
    let x ← here
    if isWordChar x || isTagMark x then
      let more ← if x == '%' then escapedChar start else do
        skip
        pure (Text.ofChars [x])
      need 1
      tagChars start fuel (acc ++ more)
    else return acc

/-- The rest of a tag after a part that is known already, of which the mark in front is left out. -/
def tagUri (start : Mark) (head : Text) : Scan Text := do
  need 1
  let more ← tagChars start (← steps) []
  if head.isEmpty && more.isEmpty then fail start "did not find expected tag URI"
  return head.drop 1 ++ more

/-- An exclamation mark, a name, and another exclamation mark if there is one. -/
def tagHandle (directive : Bool) (start : Mark) : Scan Text := do
  need 1
  if (← here) != '!' then fail start "did not find expected '!'"
  skip
  let name ← span isWordChar
  if (← here) == '!' then
    skip
    return Text.ofChars ('!' :: name ++ ['!'])
  else
    if directive && !name.isEmpty then fail start "did not find expected '!'"
    return Text.ofChars ('!' :: name)

/-- A tag at its exclamation mark, as a handle and what follows it. -/
def tagToken : Scan TokenKind := do
  let start ← mark
  need 2
  let kind ←
    if (← look 1) == '<' then do
      skipMany 2
      let suffix ← tagUri start []
      if (← here) != '>' then fail start "did not find the expected '>'"
      skip
      pure (TokenKind.tag [] suffix)
    else do
      let handle ← tagHandle false start
      if 1 < handle.length && handle.getLast? == some 0x21 then
        pure (TokenKind.tag handle (← tagUri start []))
      else
        let suffix ← tagUri start handle
        pure (if suffix.isEmpty then .tag [] (utf8 "!") else .tag (utf8 "!") suffix)
  need 1
  if !isBlankOrEnd (← here) then fail start "did not find expected whitespace or line break"
  return kind

/-! ### Anchors and aliases -/

def anchorName : Scan (List Char) := do
  let start ← mark
  skip
  let name ← span isWordChar
  let x ← here
  let delimited := isBlankOrEnd x
    || ['?', ':', ',', ']', '}', '%', '@', (Char.ofNat 0x60)].contains x
  if name.isEmpty || !delimited then
    fail start "did not find expected alphabetic or numeric character"
  return name

/-! ### Directives -/

def directiveName (start : Mark) : Scan (List Char) := do
  let name ← span isWordChar
  if name.isEmpty then fail start "could not find expected directive name"
  if !isBlankOrEnd (← here) then fail start "found unexpected non-alphabetical character"
  return name

/-- Digits of a version, of which there are at most two. -/
def versionDigits (start : Mark) : Nat → Nat → Nat → Scan Nat
  | 0, _, n => return n
  | fuel + 1, count, n => do
    let x ← here
    if x.isDigit then
      if count = 2 then fail start "found extremely long version number"
      skip
      need 1
      versionDigits start fuel (count + 1) (n * 10 + (x.toNat - '0'.toNat))
    else
      if count = 0 then fail start "did not find expected version number"
      return n

def versionPart (start : Mark) : Scan Nat := do
  need 1
  versionDigits start 4 0 0

/-- A directive at its percent sign up to the end of its line, and where its own text ends. -/
def directiveToken : Scan (TokenKind × Mark) := do
  let start ← mark
  skip
  let name ← directiveName start
  let kind ←
    if name == "YAML".toList then do
      skipWhile isBlankChar
      let major ← versionPart start
      if (← here) != '.' then fail start "did not find expected digit or '.' character"
      skip
      let minor ← versionPart start
      pure (TokenKind.version major minor)
    else if name == "TAG".toList then do
      skipWhile isBlankChar
      let handle ← tagHandle true start
      need 1
      if !isBlankChar (← here) then fail start "did not find expected whitespace"
      skipWhile isBlankChar
      let lead ← tagUri start []
      need 1
      if !isBlankOrEnd (← here) then fail start "did not find expected whitespace or line break"
      pure (TokenKind.tagDirective handle lead)
    else fail start "found unknown directive name"
  let stop ← mark
  skipWhile isBlankChar
  if (← here) == '#' then skipWhile fun x => !isBreakOrEnd x
  if !isBreakOrEnd (← here) then fail start "did not find expected comment or line break"
  skipBreak
  return (kind, stop)

end ServiceKit.Yaml
