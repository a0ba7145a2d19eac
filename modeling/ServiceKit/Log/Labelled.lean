import ServiceKit.Log.Logger

/-!
Plain lines with a label in front: messages go to one stream and errors to another. A line is the
message of an event without a level, and nothing else of the event is shown.
-/

namespace ServiceKit.Log

structure Labelled where
  label : Text
  output : Stream
  errorOutput : Stream
deriving DecidableEq, Repr

/-- One choice about labelled lines; later choices win over earlier ones. -/
inductive LabelOption where
  | label (text : Text)
  | output (stream : Stream)
  | errorOutput (stream : Stream)

namespace Labelled

def defaultLabel : Text := utf8 "[LOG]"

/-- What follows the label of an error. -/
def errorTag : Text := utf8 "[ERROR]"

def start : Labelled := ⟨defaultLabel, .stdout, .stderr⟩

def choose (l : Labelled) : LabelOption → Labelled
  | .label text => { l with label := text }
  | .output stream => { l with output := stream }
  | .errorOutput stream => { l with errorOutput := stream }

def ofOptions (options : List LabelOption) : Labelled := options.foldl choose start

/-- The label of a configuration is chosen before everything else. -/
def ofConfig (c : Option Config) (options : List LabelOption) : Labelled :=
  ofOptions (((c.bind Config.label).map LabelOption.label).toList ++ options)

def lineLogger (stream : Stream) : Logger where
  level := Level.trace
  form := .console { noColor := true, parts := [.message] }
  timestamp := false
  caller := false
  context := .start
  stream := stream

/-- Events have no level, so only a program that writes nothing at all leaves them out. -/
def write (a : Ambient) (stream : Stream) (text : Text) : Option Write :=
  (lineLogger stream).log a Level.unlevelled text

def log (l : Labelled) (a : Ambient) (message : Text) : Option Write :=
  write a l.output (l.label ++ 0x20 :: message)

def error (l : Labelled) (a : Ambient) (message : Text) : Option Write :=
  write a l.errorOutput (l.label ++ 0x20 :: errorTag ++ 0x20 :: message)

inductive Call where
  | log (of : Labelled) (message : Text)
  | error (of : Labelled) (message : Text)

def Call.write (a : Ambient) : Call → Option Write
  | log l message => l.log a message
  | error l message => l.error a message

/-- The lines written by calls of any number of loggers. -/
def run (a : Ambient) (calls : List Call) : List Write := calls.filterMap (Call.write a)

end Labelled

end ServiceKit.Log
