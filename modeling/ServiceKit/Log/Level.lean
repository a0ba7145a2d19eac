import ServiceKit.Number.Reading
import ServiceKit.Text.Case

/-!
Levels of log lines. A logger writes lines of its own level and of the levels above.
-/

namespace ServiceKit.Log

/-- A level by its rank. -/
abbrev Level := Int

namespace Level

def trace : Level := -1

def debug : Level := 0

def info : Level := 1

def warn : Level := 2

def error : Level := 3

def fatal : Level := 4

def critical : Level := 5

/-- The rank of a line that has no level. -/
def unlevelled : Level := 6

/-- The rank that no line reaches. -/
def disabled : Level := 7

def named : List (Level × Text) :=
  [(trace, utf8 "trace"), (debug, utf8 "debug"), (info, utf8 "info"), (warn, utf8 "warn"),
    (error, utf8 "error"), (fatal, utf8 "fatal"), (critical, utf8 "panic"),
    (disabled, utf8 "disabled"), (unlevelled, [])]

/-- The name of a level; a level without one is shown by its rank. -/
def name (l : Level) : Text :=
  match named.find? fun e => e.1 == l with
  | some (_, n) => n
  | none => Number.integer l

/-- The letter that a character is compared as: the long s and the sign of Kelvin count as the
letters they look like. -/
def foldedChar (c : Char) : Char :=
  if c.toNat = 0x17F then 's' else if c.toNat = 0x212A then 'k'
  else if c.toNat < 0x80 then Text.lowerChar c else c

/-- Is a text a given word up to case? -/
def isWord (s word : Text) : Bool :=
  s.isUtf8 && s.chars.map foldedChar == word.chars

/-- The level that a text names, by its word or by its rank in eight bits. -/
def ofText? (s : Text) : Option Level :=
  match named.find? fun e => isWord s e.2 with
  | some (l, _) => some l
  | none =>
    match Number.integerOf 10 s with
    | .ok i => if -128 ≤ i ∧ i ≤ 127 then some i else none
    | .error _ => none

/-- The level of a logger that is configured by a text: info for a text that names no level. -/
def configured (s : Text) : Level :=
  if s.isEmpty then info else (ofText? s).getD info

end Level

end ServiceKit.Log
