import ServiceKit.Fallback
import ServiceKit.Fault.Basic
import ServiceKit.Text.Case

/-!
Configuration of loggers.
-/

namespace ServiceKit.Log

structure Config where
  level : Text := []
  format : Text := []
  output : Text := []
  noColor : Bool := false
  timestamp : Bool := false
  caller : Bool := false
  /-- What labelled lines start with. An empty label is not the same as none. -/
  label : Option Text := none
deriving DecidableEq, Repr, Inhabited

namespace Config

/-- A text, or another one in its place if it is empty. -/
def filled (s fallback : Text) : Text := Fallback.coalesce [s, fallback]

/-- Empty texts are replaced by defaults; everything else stays. -/
def withDefaults (c : Config) : Config :=
  { c with
    level := filled c.level (utf8 "info")
    format := filled c.format (utf8 "console")
    output := filled c.output (utf8 "stderr") }

def levels : List Text :=
  [utf8 "trace", utf8 "debug", utf8 "info", utf8 "warn", utf8 "error", utf8 "fatal"]

def formats : List Text := [utf8 "json", utf8 "console", utf8 "pretty"]

def outputs : List Text := [utf8 "stdout", utf8 "stderr"]

def notOneOf (key : Text) (allowed : List Text) (value : Text) : Failure :=
  Fault.validation (key ++ utf8 " must be one of [" ++ Text.join [0x20] allowed ++ utf8 "] (got: "
    ++ value ++ utf8 ")")

/-- The first of level, format and output that is not allowed. -/
def problem? (c : Config) : Option Failure :=
  if !levels.contains c.level then some (notOneOf (utf8 "logging.level") levels c.level)
  else if !formats.contains c.format then some (notOneOf (utf8 "logging.format") formats c.format)
  else if !outputs.contains c.output then some (notOneOf (utf8 "logging.output") outputs c.output)
  else none

/-- Is the format one for people? -/
def isConsole (c : Config) : Bool :=
  [[], utf8 "console", utf8 "pretty"].contains c.format.lower

end Config

end ServiceKit.Log
