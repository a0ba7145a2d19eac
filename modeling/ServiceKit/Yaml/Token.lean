import ServiceKit.Yaml.Scalar

/-!
Tokens of a YAML stream, and the state of reading them. `Lexer` holds the tokens that are read ahead;
a key is known to be one only when its colon is seen, so tokens may still be put in front of those
that are waiting.
-/

namespace ServiceKit.Yaml

inductive TokenKind where
  | streamStart
  | streamEnd
  | version (major minor : Nat)
  | tagDirective (handle lead : Text)
  | documentStart
  | documentEnd
  | blockSequenceStart
  | blockMappingStart
  | blockEnd
  | flowSequenceStart
  | flowSequenceEnd
  | flowMappingStart
  | flowMappingEnd
  | blockEntry
  | flowEntry
  | key
  | value
  | aliasOf (name : List Char)
  | anchor (name : List Char)
  | tag (handle suffix : Text)
  | scalar (text : List Char) (style : ScalarStyle)
deriving DecidableEq, Repr, Inhabited

structure Token where
  kind : TokenKind
  start : Mark
  stop : Mark
deriving Repr, Inhabited

/-- A place where a key may have started that has no indicator of its own. -/
structure PendingKey where
  possible : Bool := false
  /-- In a block, a text at the indentation of the block must be a key. -/
  required : Bool := false
  /-- The number of the token that the key starts with. -/
  number : Nat := 0
  mark : Mark := {}

/-- What a comment is about: what follows it, the line that it is on, or what comes before it. -/
inductive CommentRole where
  | head
  | line
  | foot
deriving DecidableEq, Repr

structure Comment where
  role : CommentRole
  /-- The first token that starts at this place or later takes the comment. -/
  place : Nat
  /-- The line on which it starts. -/
  line : Nat
  /-- Is there an empty line between the comment and what follows? -/
  apart : Bool := false

structure Lexer where
  cursor : Cursor
  /-- Tokens that are read but not taken. -/
  queue : List Token := []
  /-- The number of tokens taken, and the last two of them, the latest first. -/
  taken : Nat := 0
  gone : List Token := []
  started : Bool := false
  indent : Int := -1
  indents : List Int := []
  /-- The number of open flow collections. -/
  flowLevel : Nat := 0
  /-- The pending key of each open flow collection, innermost first, and of the block around. -/
  keys : List PendingKey := [{}]
  /-- For the numbers of waiting tokens that may start a key: how many flow collections are open
  there. -/
  levels : List (Nat × Nat) := []
  keyAllowed : Bool := true
  /-- Comments that no token has taken. -/
  comments : List Comment := []
  /-- A problem that did not stop the reading. It is reported unless another one is met before the
  current node is complete. -/
  passed : Option Problem := none

/-- A step of reading tokens. When it fails, what it has read stays read. -/
abbrev Lex := EStateM Problem Lexer

/-- A step of reading at the place of a lexer. -/
def Scan.lex {α : Type} (s : Scan α) : Lex α := fun l =>
  match s l.cursor with
  | .ok a c => .ok a { l with cursor := c }
  | .error p c => .error p { l with cursor := c }

namespace Lexer

def ofText (s : Text) : Lexer := { cursor := .ofStream (.ofText s) }

def inFlow (l : Lexer) : Bool := l.flowLevel != 0

def mark (l : Lexer) : Mark := l.cursor.mark

/-- The last two tokens, the latest first. -/
def lastTwo (l : Lexer) : List Token := (l.queue.reverse ++ l.gone).take 2

def nextNumber (l : Lexer) : Nat := l.taken + l.queue.length

def push (kind : TokenKind) (start stop : Mark) (l : Lexer) : Lexer :=
  { l with queue := l.queue ++ [⟨kind, start, stop⟩] }

/-- A token put in front of the one with a given number, or behind all others if that one is taken
already. -/
def insert (number : Nat) (kind : TokenKind) (mark : Mark) (l : Lexer) : Lexer :=
  if number < l.taken then l.push kind mark mark
  else
    let n := number - l.taken
    { l with queue := l.queue.take n ++ ⟨kind, mark, mark⟩ :: l.queue.drop n }

def take (l : Lexer) : Lexer :=
  { l with
    queue := l.queue.tail
    taken := l.taken + 1
    gone := (l.queue.take 1 ++ l.gone).take 2 }

/-! ### Pending keys -/

def topKey (l : Lexer) : PendingKey := l.keys.headD {}

def setTopKey (k : PendingKey) (l : Lexer) : Lexer := { l with keys := k :: l.keys.tail }

/-- The pending key of a level; the block around everything is level zero. -/
def keyAt? (level : Nat) (l : Lexer) : Option PendingKey :=
  if level ≤ l.flowLevel then l.keys[l.flowLevel - level]? else none

def setKeyAt (level : Nat) (k : PendingKey) (l : Lexer) : Lexer :=
  { l with keys := l.keys.set (l.flowLevel - level) k }

/-- The token of a number starts no key any more, nor does one that is taken. -/
def forget (number : Nat) (l : Lexer) : Lexer :=
  { l with levels := l.levels.filter fun e => e.1 != number && l.taken ≤ e.1 }

end Lexer

namespace Lex

def here : Lex Char := return (← get).cursor.here

def look (n : Nat) : Lex Char := return (← get).cursor.look n

def mark : Lex Mark := return (← get).mark

/-- A problem at the current place, about a token that starts at a mark. -/
def fail {α : Type} (start : Mark) (what : String) : Lex α := do
  throw (.inToken start (← mark) what)

/-- May a key start at the next token? -/
def allowKey (allowed : Bool) : Lex Unit := modify fun l => { l with keyAllowed := allowed }

/-- Is the pending key of a level still one? A key ends on the line where it starts, within 1024
characters. -/
def keyHolds (level : Nat) : Lex Bool := do
  let l ← get
  match l.keyAt? level with
  | none => return false
  | some k =>
    if !k.possible then return false
    else if k.mark.line < l.mark.line || k.mark.index + 1024 < l.mark.index then
      if k.required then fail k.mark "could not find expected ':'"
      set (l.setKeyAt level { k with possible := false })
      return false
    else return true

/-- The pending key of the current level is given up. -/
def dropKey : Lex Unit := do
  let l ← get
  let k := l.topKey
  if k.possible then
    if k.required then fail k.mark "could not find expected ':'"
    set ((l.setTopKey { k with possible := false }).forget k.number)

/-- A key may start here. -/
def saveKey : Lex Unit := do
  let l ← get
  if l.keyAllowed then
    let required := !l.inFlow && l.indent == (l.mark.column : Int)
    dropKey
    modify fun l =>
      let l := l.forget l.nextNumber
      { l.setTopKey ⟨true, required, l.nextNumber, l.mark⟩ with
        levels := (l.nextNumber, l.flowLevel) :: l.levels }

/-! ### Nesting -/

/-- The deepest nesting of collections. -/
def maxNesting : Nat := 10000

/-- A block collection starts at a column, unless one is open there already. Its token goes to the
end of the queue or in front of the token with a number. -/
def openBlock (column : Nat) (number : Option Nat) (kind : TokenKind) (mark : Mark) : Lex Unit := do
  let l ← get
  if !l.inFlow && l.indent < (column : Int) then
    let l := { l with indents := l.indent :: l.indents, indent := column }
    set l
    if maxNesting < l.indents.length then fail l.topKey.mark "exceeded max depth of 10000"
    modify fun l => match number with
      | none => l.push kind mark mark
      | some n => l.insert n kind mark

/-- Block collections that are indented more than a column are closed. -/
def closeFrom (mark : Mark) (column : Int) : List Int → Lexer → Lexer
  | [], l => l
  | outer :: indents, l =>
    if column < l.indent then
      closeFrom mark column indents
        { l.push .blockEnd mark mark with indent := outer, indents := indents }
    else l

/-- Inside a flow collection indentation does not count. -/
def closeBlocks (mark : Mark) (column : Int) : Lex Unit := modify fun l =>
  if l.inFlow then l else closeFrom { mark with index := mark.index - 1 } column l.indents l

/-- A flow collection starts. Until a key is pending in it, its own first token stands for one. -/
def openFlow : Lex Unit := do
  modify fun l =>
    { l with
      keys := { number := l.nextNumber, mark := l.mark } :: l.keys
      flowLevel := l.flowLevel + 1 }
  let l ← get
  if maxNesting < l.flowLevel then fail l.topKey.mark "exceeded max depth of 10000"

def closeFlow : Lex Unit := modify fun l =>
  if l.inFlow then
    { l.forget l.topKey.number with keys := l.keys.tail, flowLevel := l.flowLevel - 1 }
  else l

end Lex

end ServiceKit.Yaml
