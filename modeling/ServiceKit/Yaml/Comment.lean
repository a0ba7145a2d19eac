import ServiceKit.Yaml.Token

/-!
Comments and blanks between tokens. Which token a comment belongs to follows from its indentation and
from the empty lines around it.
-/

namespace ServiceKit.Yaml

namespace Lex

/-- The number of characters up to which a comment is looked for. -/
def commentReach : Nat := 512

/-- Can some characters ahead be loaded? If not, the problem is passed over for now. -/
def sees (n : Nat) : Lex Bool := fun l =>
  match l.cursor.load n with
  | (none, c) => .ok true { l with cursor := c }
  | (some p, c) => .ok false { l with cursor := c, passed := some p }

def addComment (c : Comment) : Lex Unit := modify fun l => { l with comments := l.comments ++ [c] }

def skipComment : Lex Unit := (Scan.skipWhile fun x => !isBreakOrEnd x).lex

/-! ### Comments on the line of a token -/

/-- How many blanks lie before a comment on the same line, if there is one. -/
def blanksToComment? : Nat → Nat → Lex (Option Nat)
  | 0, _ => return none
  | fuel + 1, n => do
    if !(← sees (n + 1)) then return none
    let x ← look n
    if isBlankChar x then blanksToComment? fuel (n + 1)
    else if x == '#' then return some n
    else return none

/-- Past a comment on the line of the token read last. -/
def lineComment (place : Nat) : Lex Unit := do
  if (← get).cursor.newlines = 0 then
    if let some n ← blanksToComment? commentReach 0 then
      (Scan.skipMany n).lex
      addComment { role := .line, place := place, line := (← mark).line }
      skipComment

/-! ### Comments on lines of their own -/

structure CommentRun where
  /-- The place of the token before, as long as the run may belong to it. -/
  place : Nat
  /-- Where the current comment starts, and whether an empty line follows it. Its column is counted
  from one. -/
  text : Option (Mark × Bool) := none
  /-- No empty line was met so far, or none since the last comment line. -/
  firstGap : Bool
  inGap : Bool := false
  line : Nat
  column : Nat

namespace CommentRun

/-- The current comment is complete, and belongs to what comes before it. -/
def endFoot (r : CommentRun) (place : Nat) (next : Nat) : Lex CommentRun := do
  match r.text with
  | none => return r
  | some (start, _) =>
    addComment { role := .foot, place := place, line := start.line }
    return { r with place := next, text := none }

/-- The current comment is complete, and belongs to what comes after it. -/
def endHead (r : CommentRun) : Lex Unit := do
  if let some (start, apart) := r.text then
    addComment { role := .head, place := start.index, line := start.line, apart := apart }

end CommentRun

/-- What decides about the comments of a run: the indentation of the block, the line on which a
comment still belongs to the token before, and whether that token wants something to follow. -/
structure CommentSetting where
  indent : Nat
  footLine : Option Nat
  afterValue : Bool
  inFlow : Bool

/-- A comment line is complete up to its break, or a line is empty. -/
def commentGap (s : CommentSetting) (r : CommentRun) (x : Char) (next : Nat) : Lex CommentRun := do
  let closes := s.inFlow && (x == ']' || x == '}')
  if r.inGap && !closes then return r
  match r.text with
  | none => return r
  | some (start, _) =>
    let outdented := start.column ≤ s.indent
    if closes || (r.firstGap && ((s.footLine == some start.line && !s.afterValue) || outdented)) then
      r.endFoot (if outdented then start.index else r.place) next
    else return if isEnd x then r else { r with text := some (start, true) }

/-- A run of comment lines from the character some places ahead on. Line breaks other than line feeds
and carriage returns end a run. -/
def commentLines (s : CommentSetting) : Nat → Nat → Bool → CommentRun → Lex Unit
  | 0, _, _, r => r.endHead
  | fuel + 1, n, inBreak, r => do
    if commentReach ≤ n then return ← r.endHead
    if !(← sees (n + 1)) then return ← r.endHead
    let r := { r with column := r.column + 1 }
    let x ← if inBreak then pure '?' else look n
    let next := (← mark).index + n
    if isBlankChar x then commentLines s fuel (n + 1) false r
    else if isBreakOrEnd x || (s.inFlow && (x == ']' || x == '}')) then
      let r ← commentGap s r x next
      if !isBreak x then return ← r.endHead
      commentLines s fuel (n + 1) (0x80 ≤ x.toNat)
        { r with firstGap := false, inGap := true, column := 0, line := r.line + 1 }
    else
      let r ← match r.text with
        | some (start, _) =>
          if r.column ≤ s.indent && r.column != start.column then r.endFoot r.place next else pure r
        | none => pure r
      if x != '#' then return ← r.endHead
      let start := (r.text.map Prod.fst).getD ⟨next, r.line, r.column⟩
      modify fun l => { l with cursor := pass n l.cursor }
      skipComment
      let c := (← get).cursor
      commentLines s fuel 1 (0x80 ≤ c.here.toNat)
        { r with text := some (start, false), inGap := false, line := c.mark.line, column := 0 }
where
  /-- Past some characters, line breaks among them. -/
  pass (n : Nat) (c : Cursor) : Cursor := passFrom n (c.mark.index + n) c
  passFrom : Nat → Nat → Cursor → Cursor
    | 0, _, c => c
    | fuel + 1, stop, c =>
      if c.mark.index < stop then passFrom fuel stop (if isBreak c.here then c.skipLine else c.skip)
      else c

/-- Past a comment and the comment lines right after it, up to the last line break. `since` is where
the blanks before it start. -/
def skipComments (since : Mark) : Lex Unit := do
  let l ← get
  let before : Token := match l.lastTwo with
    | [t, t'] => if t.kind = TokenKind.flowEntry then t' else t
    | ts => ts.headD default
  let c := l.cursor
  let footLine :=
    if since.line = 0 then none
    else some (c.mark.line - c.newlines + 1
      + if c.newlines = 0 && 1 < c.mark.column then 1 else 0)
  commentLines ⟨l.indent.toNat, footLine, before.kind == .value, l.inFlow⟩ (2 * c.size + 2) 0 false
    { place := before.start.index, firstGap := c.newlines ≤ 1, line := c.mark.line
      column := c.mark.column }

/-! ### Between tokens -/

/-- A comment on the line before the first item of a sequence is about the item. -/
def adoptLineComment : Lex Unit := modify fun l =>
  match l.lastTwo.map Token.kind, l.comments.getLast? with
  | [.blockEntry, .blockSequenceStart], some c =>
    if c.role = .line ∧ !isBreak l.cursor.here then
      let place := if c.line + 1 = l.mark.line then l.mark.index else c.place
      { l with comments := l.comments.dropLast ++ [{ c with role := .head, place := place }] }
    else l
  | _, _ => l

/-- Past blanks, comments and line breaks to the next token. Tabs do not count as blanks where they
could be taken for indentation. At the start of a line one character is passed over as long as what
is loaded starts with a byte order mark. -/
def skipToToken (since : Mark) : Nat → Lex Unit
  | 0 => return ()
  | fuel + 1 => do
    (Scan.need 1).lex
    let l ← get
    if l.mark.column = 0 && l.cursor.marked then Scan.skip.lex
    (Scan.skipWhile fun x => x == ' ' || (x == '\t' && (l.inFlow || !l.keyAllowed))).lex
    adoptLineComment
    if (← here) == '#' then skipComments since
    if isBreak (← here) then
      Scan.skipBreak.lex
      if !l.inFlow then allowKey true
      skipToToken since fuel

end Lex

end ServiceKit.Yaml
