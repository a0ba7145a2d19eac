import ServiceKit.Log.Config
import ServiceKit.Log.Console
import ServiceKit.Log.Level

/-!
Loggers. A logger is a value: deriving one from another changes neither, and what a call writes is
its result.
-/

namespace ServiceKit.Log

/-- Where lines go: the standard streams of the program, or another writer by its number. -/
inductive Stream where
  | stdout
  | stderr
  | writer (n : Nat)
deriving DecidableEq, Repr

/-- Does a stream end at a terminal? One that is no file never does. -/
def Stream.isTerminal (files : Stream → Bool) : Stream → Bool
  | writer _ => false
  | stream => files stream

structure Write where
  stream : Stream
  line : Text
deriving DecidableEq, Repr

inductive Form where
  | json
  | console (style : Console)

structure Logger where
  level : Level
  form : Form
  timestamp : Bool
  caller : Bool
  /-- What every line says after the level. -/
  context : Draft
  stream : Stream

namespace Logger

/-- A logger for a component that writes to a stream. -/
def ofConfig (c : Config) (component : Text) (stream : Stream) : Logger where
  level := Level.configured c.level
  form := if c.isConsole then
      .console {
        noColor := c.noColor
        parts := (if c.timestamp then [.time] else []) ++ [.level, .caller, .message]
        component := component }
    else .json
  timestamp := c.timestamp
  caller := c.caller
  context := Draft.start.addAll (if component.isEmpty then [] else [⟨componentKey, .text component⟩])
  stream := stream

def standardStream (c : Config) : Stream :=
  if c.output.lower = utf8 "stdout" then .stdout else .stderr

def standard (c : Config) (component : Text) : Logger := ofConfig c component (standardStream c)

/-- A logger that nothing is configured for. -/
def fallback (component : Text) : Logger := standard ({} : Config).withDefaults component

def withMembers (l : Logger) (ms : List Member) : Logger :=
  { l with context := l.context.addAll ms }

def withComponent (l : Logger) (name : Text) : Logger :=
  l.withMembers [⟨componentKey, .text name⟩]

def withFields (l : Logger) (fields : Keyed Detail) : Logger :=
  l.withMembers (Member.ofFields fields)

/-- No error adds nothing. -/
def withError (l : Logger) : Option Text → Logger
  | some text => l.withMembers [⟨errorKey, .text text⟩]
  | none => l

def enabled (l : Logger) (a : Ambient) (level : Level) : Bool :=
  l.level ≤ level && a.leastLevel ≤ level

def levelMember (level : Level) : List Member :=
  if level = Level.unlevelled then [] else [⟨levelKey, .text level.name⟩]

def messageMember (message : Text) : List Member :=
  if message.isEmpty then [] else [⟨messageKey, .text message⟩]

/-- What a call adds to what its logger says: its fields, the time, the place, and the message. -/
def callMembers (l : Logger) (a : Ambient) (message : Text) (fields : List (Keyed Detail)) :
    List Member :=
  fields.flatMap Member.ofFields
    ++ (if l.timestamp then [⟨timeKey, .text { a.now with nanosecond := 0 }.jsonText⟩] else [])
    ++ (if l.caller then [⟨callerKey, .text a.caller⟩] else [])
    ++ messageMember message

/-- The event of a call as a line of JSON. The level comes first. -/
def event (l : Logger) (a : Ambient) (level : Level) (message : Text)
    (fields : List (Keyed Detail)) : Text :=
  (((Draft.start.addAll (levelMember level)).splice l.context).addAll
    (l.callMembers a message fields)).close

/-- The notice of an event that cannot be read again. -/
def notice (e : Json.ReadError) : Text :=
  utf8 "zerolog: could not write event: cannot decode event: " ++ e.message ++ [0x0A]

/-- An event as it is written. A line for people that cannot be made is replaced by a notice on the
error stream. -/
def deliver (l : Logger) (a : Ambient) (event : Text) : Write :=
  match l.form with
  | .json => ⟨l.stream, event⟩
  | .console style =>
    match style.line a event with
    | .ok line => ⟨l.stream, line⟩
    | .error e => ⟨.stderr, notice e⟩

/-- What a call writes. A line of the disabled level is never written. -/
def log (l : Logger) (a : Ambient) (level : Level) (message : Text)
    (fields : List (Keyed Detail) := []) : Option Write :=
  if l.enabled a level && level != Level.disabled then
    some (l.deliver a (l.event a level message fields))
  else none

end Logger

inductive Derivation where
  | component (name : Text)
  | fields (fields : Keyed Detail)
  | error (error : Option Text)

namespace Logger

def derive (l : Logger) : Derivation → Logger
  | .component name => l.withComponent name
  | .fields fields => l.withFields fields
  | .error error => l.withError error

def deriveAll (l : Logger) (chain : List Derivation) : Logger := chain.foldl derive l

end Logger

/-- Something that is done with loggers, which are known by the order in which they were made. -/
inductive Action where
  | derive (of : Nat) (derivation : Derivation)
  | call (of : Nat) (ambient : Ambient) (level : Level) (message : Text) (fields : List (Keyed Detail))

def Action.derived (loggers : List Logger) : Action → Option Logger
  | derive of derivation => loggers[of]?.map (·.derive derivation)
  | call .. => none

def Action.write (loggers : List Logger) : Action → Option Write
  | derive .. => none
  | call of a level message fields => loggers[of]?.bind fun l => l.log a level message fields

/-- The lines written by a run of actions that starts with some loggers. -/
def run : List Logger → List Action → List Write
  | _, [] => []
  | loggers, action :: rest =>
    (action.write loggers).toList ++ run (loggers ++ (action.derived loggers).toList) rest

def contentOf (stream : Stream) (ws : List Write) : Text :=
  (ws.filter fun w => w.stream = stream).flatMap Write.line

end ServiceKit.Log
