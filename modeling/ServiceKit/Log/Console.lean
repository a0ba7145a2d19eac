import ServiceKit.Json.Reader
import ServiceKit.Log.Level
import ServiceKit.Log.Record
import ServiceKit.Text.Case
import ServiceKit.Text.Quoted
import ServiceKit.Text.Route
import ServiceKit.Timestamp

/-!
Log lines for people. A line is made of the document of an event, which is read again for that: a few
parts in a fixed order come first, then the other members by name.
-/

namespace ServiceKit.Log

structure Ambient where
  /-- The least level that is written at all. -/
  leastLevel : Level := Level.trace
  /-- Does the environment want no colours? -/
  quiet : Bool := false
  now : Timestamp
  /-- The place of the call. -/
  caller : Text
  /-- The names that lead from the root to the working directory, if it is known. -/
  directory : Option (List Text) := none

namespace Ambient

def clock (a : Ambient) : Text := { a.now with nanosecond := 0 }.clockText

/-- A path as it is shown in the working directory. -/
def shownPath (a : Ambient) (path : Text) : Text := a.directory.elim path path.seenFrom

end Ambient

/-- A part of a line that has a place of its own. -/
inductive Part where
  | time
  | level
  | caller
  | message
deriving DecidableEq, Repr

structure Console where
  noColor : Bool := false
  /-- The parts that come first, in their order. -/
  parts : List Part
  /-- The component whose name stands in front of the level. -/
  component : Text := []

/-- A text set in a colour: an escape sequence before it and another one after it. -/
def coloured (code : Nat) (s : Text) : Text :=
  utf8 "\x1b[" ++ Number.decimal code ++ utf8 "m" ++ s ++ utf8 "\x1b[0m"

def colouredIf (on : Bool) (code : Nat) (s : Text) : Text := if on then coloured code s else s

/-- What a reader of an event finds in it. -/
abbrev Finding := Json Json.Literal

mutual

/-- A value where a text is wanted: a value of another kind is shown as a misfit. -/
def asText : Finding → Text
  | .null => utf8 "%!s(<nil>)"
  | .bool true => utf8 "%!s(bool=true)"
  | .bool false => utf8 "%!s(bool=false)"
  | .number l => l.text
  | .string s => s
  | .array xs => 0x5B :: Text.join [0x20] (innerTexts xs) ++ [0x5D]
  | .object ms => utf8 "map[" ++ Text.join [0x20] (innerEntries ms) ++ [0x5D]

/-- Inside a collection nothing is shown by its name alone. -/
def innerTexts : List Finding → List Text
  | [] => []
  | .null :: xs => utf8 "<nil>" :: innerTexts xs
  | x :: xs => asText x :: innerTexts xs

def innerEntries : List (Text × Finding) → List Text
  | [] => []
  | (k, .null) :: ms => (k ++ 0x3A :: utf8 "<nil>") :: innerEntries ms
  | (k, x) :: ms => (k ++ 0x3A :: asText x) :: innerEntries ms

end

/-- The tags of the levels, and their colours. -/
def levelTags : List (Text × Text × Option Nat) :=
  [(utf8 "TRACE", utf8 "[TRC]", none), (utf8 "DEBUG", utf8 "[DBG]", some 36),
    (utf8 "INFO", utf8 "[INF]", some 32), (utf8 "WARN", utf8 "[WRN]", some 33),
    (utf8 "ERROR", utf8 "[ERR]", some 31), (utf8 "FATAL", utf8 "[FTL]", some 35)]

namespace Console

def levelTag (c : Console) (level : Finding) : Text :=
  let word := (asText level).upper
  match levelTags.find? fun e => e.1 == word with
  | some (_, tag, some code) => colouredIf (!c.noColor) code tag
  | some (_, tag, none) => tag
  | none => 0x5B :: word ++ [0x5D]

/-- The first three bytes of the component in capitals; a shorter name is not shown. -/
def componentTag (c : Console) : Text :=
  if c.component.length < 3 then []
  else colouredIf (!c.noColor) 34 (0x5B :: Text.upper (c.component.take 3) ++ [0x5D])

def levelPart (c : Console) (level : Finding) : Text := c.componentTag ++ c.levelTag level

def callerPart (colour : Bool) (a : Ambient) : Option Finding → Text
  | some (.string s) =>
    if s.isEmpty then [] else colouredIf colour 1 (a.shownPath s) ++ colouredIf colour 36 (utf8 " >")
  | _ => []

def boldLevels : List Text :=
  [utf8 "info", utf8 "warn", utf8 "error", utf8 "fatal", utf8 "panic"]

def isBold : Option Finding → Bool
  | some (.string s) => boldLevels.contains s
  | _ => false

def messagePart (colour : Bool) (level : Option Finding) : Option Finding → Text
  | none | some .null | some (.string []) => []
  | some m => colouredIf (colour && isBold level) 1 (asText m)

/-- Does a text have to be quoted to be told apart from what stands around it? -/
def needsQuotes (s : Text) : Bool :=
  s.any fun b => b < 0x20 || 0x7E < b || b == 0x20 || b == 0x5C || b == 0x22

/-- The value of a member that has no part of its own. -/
def fieldValue : Finding → Text
  | .string s => if needsQuotes s then s.quoted else s
  | x => x.write .plain Json.Literal.text

/-- A member that has no part of its own; an error stands out. -/
def fieldText (colour : Bool) (key : Text) (x : Finding) : Text :=
  if key = errorKey then
    colouredIf colour 36 (key ++ utf8 "=") ++ colouredIf colour 31 (colouredIf colour 1 (fieldValue x))
  else key ++ 0x3A :: fieldValue x

/-- Members that have a part of their own. -/
def isPart (key : Text) : Bool := [levelKey, timeKey, messageKey, callerKey].contains key

/-- The other members in the order of their keys. An error comes first, and then a member without
a name is left out. -/
def otherFields (seen : Keyed Finding) : Keyed Finding :=
  let fields := seen.filter fun e => !isPart e.1
  match fields.find? fun e => e.1 == errorKey with
  | some e => e :: fields.filter fun f => f.1 != errorKey && !f.1.isEmpty
  | none => fields

/-- Parts that are not empty, each after a space if something stands before it. -/
def joinParts (parts : List Text) : Text := Text.join [0x20] (parts.filter fun p => !p.isEmpty)

def partText (c : Console) (colour : Bool) (a : Ambient) (seen : Keyed Finding) : Part → Text
  | .time => colouredIf colour 90 a.clock
  | .level => c.levelPart ((seen.find? levelKey).getD .null)
  | .caller => callerPart colour a (seen.find? callerKey)
  | .message => messagePart colour (seen.find? levelKey) (seen.find? messageKey)

/-- The line for the members of an event. The tags of level and component have their colours even
if the environment wants none. -/
def lineOf (c : Console) (a : Ambient) (seen : Keyed Finding) : Text :=
  let colour := !c.noColor && !a.quiet
  let head := joinParts (c.parts.map (c.partText colour a seen))
  let fields := otherFields seen
  let tail := Text.join [0x20] (fields.map fun (k, x) => fieldText colour k x)
  head ++ (if !head.isEmpty && !fields.isEmpty then [0x20] else []) ++ tail ++ [0x0A]

/-- The members of an event's document; of several with one key the last counts. -/
def membersOf (event : Text) : Except Json.ReadError (Keyed Finding) := do
  match (← Json.read event).canonical with
  | .object members => .ok members
  | _ => .ok []

def line (c : Console) (a : Ambient) (event : Text) : Except Json.ReadError Text := do
  .ok (c.lineOf a (← membersOf event))

end Console

end ServiceKit.Log
