import ServiceKit.Config.Reference
import ServiceKit.Environment
import ServiceKit.Text.Encoded
import ServiceKit.Text.Space

/-!
Settings files made of assignments, one a line. Their values may refer to variables of the program's
environment and to settings above them.
-/

namespace ServiceKit.Config.Assignments

inductive Mistake where
  | noQuote
  | unset (line : Text)
  | noAssignment (line : Text)
  | longLine
deriving DecidableEq, Repr

namespace Mistake

def message : Mistake → Text
  | noQuote => utf8 "missing quotes"
  | unset line => utf8 "line " ++ 0x60 :: line ++ 0x60 :: utf8 " has an unset variable"
  | noAssignment line => utf8 "line " ++ 0x60 :: line ++ 0x60 :: utf8 " doesn't match format"
  | longLine => utf8 "bufio.Scanner: token too long"

end Mistake

/-! ### Lines -/

/-- The lines of a text; a line ends with a line feed, a carriage return or both. -/
def lines : Text → List Text
  | [] => [[]]
  | 0x0D :: 0x0A :: rest => [] :: lines rest
  | b :: rest =>
    if b = 0x0A || b = 0x0D then [] :: lines rest
    else match lines rest with
      | [] => [[b]]
      | w :: ws => (b :: w) :: ws

def lastIndex? (b : UInt8) (s : Text) : Option Nat :=
  (List.range s.length).reverse.find? fun i => s[i]? == some b

/-- The quote that a line opens without closing it. -/
def openQuote? (line : Text) : Option UInt8 :=
  match (Text.cut? 0x3D line).orElse fun _ => Text.cut? 0x3A line with
  | none => none
  | some ([], _) => none
  | some (_, rest) =>
    match Text.trim rest with
    | [] => none
    | quote :: inside =>
      if quote = 0x22 || quote = 0x27 then
        match lastIndex? quote (Text.trim inside) with
        | none => some quote
        | some i => if (quote :: inside)[i]? = some 0x5C then some quote else none
      else none

def closes (quote : UInt8) (next : Text) : Bool :=
  match lastIndex? quote next with
  | none => false
  | some 0 => true
  | some (i + 1) => next[i]? != some 0x5C

/-- The lines up to the one that closes a quote, and the lines after it. -/
def upToClose? (quote : UInt8) : List Text → Option (List Text × List Text)
  | [] => none
  | line :: rest =>
    if closes quote line then some ([line], rest)
    else (upToClose? quote rest).map fun (taken, after) => (line :: taken, after)

/-! ### One assignment -/

def isBlank (b : UInt8) : Bool := b == 0x20 || b == 0x09 || b == 0x0A || b == 0x0C || b == 0x0D

def isKeyByte (b : UInt8) : Bool := Text.isLetter b || Text.isDigit b || b == 0x5F || b == 0x2E

/-- Is there nothing more than blanks and a comment on the last line? -/
def isTail (s : Text) : Bool :=
  match s.dropWhile isBlank with
  | [] => true
  | b :: rest => b == 0x23 && !rest.contains 0x0A

/-- The longest quoted text at the start after which nothing more stands. -/
def quotedValue? (quote : UInt8) (s : Text) : Option Text :=
  match s with
  | [] => none
  | b :: _ =>
    if b != quote then none
    else (List.range s.length).reverse.findSome? fun i =>
      if 0 < i && s[i]? == some quote && isTail (s.drop (i + 1)) then some (s.take (i + 1)) else none

/-- A value at the start of a text after which nothing more stands. -/
def value? (s : Text) : Option Text :=
  ((quotedValue? 0x27 s).orElse fun _ => quotedValue? 0x22 s).orElse fun _ =>
    let plain := s.takeWhile fun b => b != 0x23 && b != 0x0A
    let rest := s.drop plain.length
    if !plain.isEmpty && isTail rest then some plain else if isTail s then some [] else none

/-- The values after a colon and one or more blanks: the fewest blanks first. -/
def colonValue? : Text → Option Text
  | [] => none
  | b :: rest => if isBlank b then (value? rest).orElse fun _ => colonValue? rest else none

/-- A key with its value as it is written. -/
def assignment? (s : Text) : Option (Text × Text) :=
  let key := s.takeWhile isKeyByte
  if key.isEmpty then none
  else
    let rest := s.drop key.length
    let value := match rest.dropWhile isBlank with
      | 0x3D :: after => value? (after.dropWhile isBlank)
      | _ => none
    let value := value.orElse fun _ => match rest with
      | 0x3A :: after => colonValue? after
      | _ => none
    value.map fun v => (key, v)

/-- An assignment, which may be marked for other programs by a word in front. -/
def statement? (line : Text) : Option (Text × Text) :=
  let line := line.dropWhile isBlank
  let marked := match Text.dropLead? (utf8 "export") line with
    | some (b :: rest) => if isBlank b then assignment? (rest.dropWhile isBlank) else none
    | _ => none
  marked.orElse fun _ => assignment? line

def isQuotedBy (quote : UInt8) (s : Text) : Bool :=
  2 ≤ s.length && s.head? == some quote && s.getLast? == some quote

/-- The value of a name: of a variable first, then of a setting above. -/
def lookup (env : Environment) (known : Keyed Text) (name : Text) : Text :=
  ((Environment.find? name env).orElse fun _ => Keyed.find? name known).getD []

/-- Line breaks that are written as a backslash and a letter, wherever the two stand together. -/
def breaks (letter byte : UInt8) : Text → Text
  | 0x5C :: b :: rest =>
    if b = letter then byte :: breaks letter byte rest
    else 0x5C :: breaks letter byte (b :: rest)
  | b :: rest => b :: breaks letter byte rest
  | [] => []

def meaning (env : Environment) (known : Keyed Text) (written : Text) : Text :=
  let expand (s : Text) : Text := Reference.expand false (lookup env known) (s.length + 1) s
  let s := Text.trim written
  let inside := (s.drop 1).take (s.length - 2)
  if isQuotedBy 0x27 s then inside
  else if isQuotedBy 0x22 s then
    expand (dropEscapes (breaks 0x72 0x0D (breaks 0x6E 0x0A inside)))
  else expand s

def mistakeIn (known : Keyed Text) (line : Text) : Mistake :=
  let s := Text.trim line
  match if s.startsWith (utf8 "export") then Text.cut? 0x20 s else none with
  | some (_, name) => if (Keyed.find? name known).isSome then .noAssignment line else .unset s
  | none => .noAssignment line

/-- The settings of a list of lines, added to those that are known. -/
def settings (env : Environment) : Nat → Keyed Text → List Text → Except Mistake (Keyed Text)
  | 0, known, _ => .ok known
  | _ + 1, known, [] => .ok known
  | fuel + 1, known, line :: rest =>
    let line := Text.trim line
    if line.isEmpty || line.head? = some 0x23 then settings env fuel known rest
    else do
      let (line, rest) ← match openQuote? line with
        | none => .ok (line, rest)
        | some quote =>
          match upToClose? quote rest with
          | some (taken, rest) => .ok (Text.join [0x0A] (line :: taken), rest)
          | none => .error .noQuote
      match statement? line with
      | some (key, written) =>
        settings env fuel (Keyed.put key (meaning env known written) known) rest
      | none => .error (mistakeIn known line)

/-- The number of bytes from which on a line cannot be read. -/
def lineLimit : Nat := 65536

/-- The settings of a file. What comes before a line that is too long is read nevertheless. -/
def read (env : Environment) (s : Text) : Except Mistake (Keyed Text) := do
  let ls := lines s.unmarked
  let readable := ls.takeWhile fun l => l.length < lineLimit
  let known ← settings env (readable.length + 1) [] readable
  if readable.length < ls.length then throw .longLine
  return known

end ServiceKit.Config.Assignments
