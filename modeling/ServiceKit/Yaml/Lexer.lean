import ServiceKit.Yaml.Comment
import ServiceKit.Yaml.Property

/-!
The tokens of a YAML stream one after the other.
-/

namespace ServiceKit.Yaml

namespace Lex

/-- A token of some characters, which are passed over. -/
def emit (n : Nat) (kind : TokenKind) : Lex Unit := do
  let start ← mark
  (Scan.skipMany n).lex
  let stop ← mark
  modify (Lexer.push kind start stop)

/-- A token that a step of reading makes. -/
def emitFrom (s : Scan TokenKind) : Lex Unit := do
  let start ← mark
  let kind ← s.lex
  let stop ← mark
  modify (Lexer.push kind start stop)

/-! ### Streams and documents -/

/-- The end of a stream starts a line of its own. -/
def streamEnd : Lex Unit := do
  modify fun l =>
    let m := l.mark
    let m := if m.column ≠ 0 then { m with line := m.line + 1, column := 0 } else m
    { l with cursor := { l.cursor with mark := m } }
  let m ← mark
  closeBlocks m (-1)
  dropKey
  allowKey false
  modify (Lexer.push .streamEnd m m)

/-- All blocks end before a token about documents. -/
def closeDocument : Lex Unit := do
  closeBlocks (← mark) (-1)
  dropKey
  allowKey false

def directive : Lex Unit := do
  closeDocument
  let start ← mark
  let (kind, stop) ← directiveToken.lex
  modify (Lexer.push kind start stop)

/-! ### Collections -/

def flowStart (kind : TokenKind) : Lex Unit := do
  saveKey
  openFlow
  allowKey true
  emit 1 kind

def flowEnd (kind : TokenKind) : Lex Unit := do
  dropKey
  closeFlow
  allowKey false
  emit 1 kind

def flowEntry : Lex Unit := do
  dropKey
  allowKey true
  emit 1 .flowEntry

/-- In a block an indicator may open a collection, if a key may start there. -/
def openAtIndicator (kind : TokenKind) (complaint : String) : Lex Unit := do
  let l ← get
  if !l.inFlow then
    if !l.keyAllowed then fail l.mark complaint
    openBlock l.mark.column none kind l.mark

def blockEntry : Lex Unit := do
  openAtIndicator .blockSequenceStart "block sequence entries are not allowed in this context"
  dropKey
  allowKey true
  emit 1 .blockEntry

def keyIndicator : Lex Unit := do
  openAtIndicator .blockMappingStart "mapping keys are not allowed in this context"
  dropKey
  allowKey (!(← get).inFlow)
  emit 1 .key

/-- A colon makes a key of what is pending. If nothing is, the key was marked by an indicator. -/
def valueIndicator : Lex Unit := do
  if ← keyHolds (← get).flowLevel then
    let k := (← get).topKey
    modify (Lexer.insert k.number .key k.mark)
    openBlock k.mark.column (some k.number) .blockMappingStart k.mark
    modify fun l => (l.setTopKey { k with possible := false }).forget k.number
    allowKey false
  else
    openAtIndicator .blockMappingStart "mapping values are not allowed in this context"
    allowKey (!(← get).inFlow)
  emit 1 .value

/-! ### Nodes -/

def anchorOrAlias (kind : List Char → TokenKind) : Lex Unit := do
  saveKey
  allowKey false
  emitFrom do return kind (← anchorName)

def tag : Lex Unit := do
  saveKey
  allowKey false
  emitFrom tagToken

def block (folds : Bool) : Lex Unit := do
  dropKey
  allowKey true
  let parent := (← get).indent
  emitFrom do return .scalar (← blockScalar folds parent) (if folds then .folded else .literal)

def quoted (single : Bool) : Lex Unit := do
  saveKey
  allowKey false
  emitFrom do return .scalar (← quotedScalar single) (if single then .singleQuoted else .doubleQuoted)

def plain : Lex Unit := do
  saveKey
  allowKey false
  let l ← get
  let t ← (plainScalar l.inFlow (l.indent + 1).toNat).lex
  modify (Lexer.push (.scalar t.text .plain) l.mark t.stop)
  if t.broken then allowKey true

/-- Characters that start no plain scalar. -/
def isIndicator (c : Char) : Bool :=
  ['-', '?', ':', ',', '[', ']', '{', '}', '#', '&', '*', '!', '|', '>', '\'', '"', '%', '@',
    (Char.ofNat 0x60)].contains c

/-- A plain scalar may start with some indicators if no blank follows. -/
def startsPlain (inFlow : Bool) (x y : Char) : Bool :=
  !(isBlankOrEnd x || isIndicator x) || (x == '-' && !isBlankChar y)
    || (!inFlow && (x == '?' || x == ':') && !isBlankOrEnd y)

/-- A token that starts at the current place and is not about documents. -/
def content : Lex Unit := do
  let l ← get
  let x := l.cursor.here
  let y := l.cursor.look 1
  if x == '[' then flowStart .flowSequenceStart
  else if x == '{' then flowStart .flowMappingStart
  else if x == ']' then flowEnd .flowSequenceEnd
  else if x == '}' then flowEnd .flowMappingEnd
  else if x == ',' then flowEntry
  else if x == '-' && isBlankOrEnd y then blockEntry
  else if x == '?' && (l.inFlow || isBlankOrEnd y) then keyIndicator
  else if x == ':' && (l.inFlow || isBlankOrEnd y) then valueIndicator
  else if x == '*' then anchorOrAlias .aliasOf
  else if x == '&' then anchorOrAlias .anchor
  else if x == '!' then tag
  else if x == '|' && !l.inFlow then block false
  else if x == '>' && !l.inFlow then block true
  else if x == '\'' then quoted true
  else if x == '"' then quoted false
  else if startsPlain l.inFlow x y then plain
  else fail l.mark "found character that cannot start any token"

/-- The place that a comment on the line of a token has: that of the token before a separator, or
that of the token itself. -/
def commentPlace (l : Lexer) : Nat :=
  let x := l.cursor.here
  match l.lastTwo with
  | t :: _ => if x == (if l.inFlow then ',' else ':') then t.start.index else l.mark.index
  | [] => l.mark.index

/-- The next token is read, and with it the tokens that it shows to come before it. -/
def readToken : Lex Unit := do
  (Scan.need 1).lex
  if !(← get).started then
    modify fun l => { l.push .streamStart l.mark l.mark with started := true }
  else
    let since ← mark
    skipToToken since ((← get).cursor.size + 1)
    closeBlocks since (← mark).column
    (Scan.need 4).lex
    let l ← get
    let c := l.cursor
    if isEnd c.here then streamEnd
    else if c.mark.column == 0 && c.here == '%' then directive
    else if c.atBoundary '-' then
      closeDocument
      emit 3 .documentStart
    else if c.atBoundary '.' then
      closeDocument
      emit 3 .documentEnd
    else
      content
      if ((← get).lastTwo.head?.map Token.kind) != some .blockEntry then lineComment (commentPlace l)

/-- Tokens are read until three are waiting and the first of them is not a pending key. -/
def fill : Nat → Lex Unit
  | 0 => return ()
  | fuel + 1 => do
    let l ← get
    let wanting ←
      if l.queue.length ≤ 2 then pure true
      else match l.levels.find? fun e => e.1 == l.taken with
        | none => pure false
        | some (_, level) => keyHolds level
    if wanting then
      readToken
      fill fuel

def peek : Lex Token := do
  fill ((← get).cursor.size + 5)
  return (← get).queue.headD default

end Lex

end ServiceKit.Yaml
