import ServiceKit.Cli.Flags
import ServiceKit.Config.Loader
import ServiceKit.Json.Parse
import ServiceKit.Log.Labelled
import ServiceKit.Version

/-!
The command line: one run of the program, from its arguments and surroundings to its exit code and
all that it writes.
-/

namespace ServiceKit.Cli

open Log (Stream Write)

/-- The name of the program, of its service and of its variables. -/
def programName : Text := utf8 "utilkit"

def variableLead : Text := utf8 "UTILKIT"

def usage : Text := utf8 "usage: utilkit [--config file] <command> [flags] [args]

commands:
  format [--trim] [--lowercase] <text...>   format text (stdin when no text)
  parse [--strict] [<json>]                 parse JSON (stdin when no arg), print it compactly or null
  log [--prefix p] [--error] <message...>   write a prefixed line to stdout (stderr with --error)
  version                                   print the build version
"

inductive Exit where
  | success
  | failure
  | badInput
  /-- The run breaks off. -/
  | defect (d : Defect)
deriving DecidableEq, Repr

def Exit.code : Exit → Nat
  | success => 0
  | failure => 1
  | badInput => 2
  | defect _ => 2

structure Setup where
  args : List Text
  /-- What can be read from standard input, and why no more can. -/
  input : Text := []
  inputError : Option Text := none
  /-- Why nothing can be written to standard output. -/
  outputError : Option Text := none
  files : Config.Files
  environment : Environment := []
  stamp : Stamp := {}
  build : Option Build := none
  /-- Is a standard stream a terminal? -/
  terminal : Stream → Bool := fun _ => false
  /-- The time and the place of calls, and the working directory. -/
  now : Timestamp
  caller : Text := []
  directory : Option (List Text) := none
  order : MapOrder := Text.lt
  toml : Config.SettingsFile.TomlReader := fun _ => .error (utf8 "decoder not found for this format")

/-- Where it is said that a log line could not be written. -/
def noticeStream : Stream := .writer 0

namespace Setup

def ambient (s : Setup) (env : Environment) : Log.Ambient where
  quiet := env.wantsNoColor
  now := s.now
  caller := s.caller
  directory := s.directory

/-- A line of a logger: if it cannot be written, a notice says why, and the run goes on. -/
def emit (s : Setup) : Option Write → List Write
  | none => []
  | some w =>
    match s.outputError with
    | some why =>
      if w.stream = .stdout then
        [⟨noticeStream, utf8 "zerolog: could not write event: " ++ why ++ [0x0A]⟩]
      else [w]
    | none => [w]

end Setup

inductive Stop where
  | help
  | failure (f : Failure)
  /-- An error that comes from elsewhere. -/
  | other (why : Text)
  | defect (d : Defect)

/-- What a command writes and how it ends. -/
structure Ran where
  writes : List Write := []
  stop : Option Stop := none

namespace Ran

def after (ws : List Write) (r : Ran) : Ran := { r with writes := ws ++ r.writes }

def failed (f : Failure) : Ran := { stop := some (.failure f) }

end Ran

structure Context where
  setup : Setup
  config : Config.ServiceConfig
  logger : Log.Logger
  ambient : Log.Ambient

namespace Context

def print (c : Context) (s : Text) : Ran :=
  match c.setup.outputError with
  | some why => { stop := some (.other why) }
  | none => { writes := [⟨.stdout, s⟩] }

/-- A command with its flags read. Help is written to the error stream. -/
def withFlags (command : String) (flags : List Flag) (args : List Text) (body : Parsed → Ran) : Ran :=
  match readFlags flags true args with
  | .ok p => body p
  | .error .help => { writes := [⟨.stderr, flagTable (utf8 command) flags⟩], stop := some .help }
  | .error (.fault f) =>
    .failed ((Fault.invalidInput (utf8 "flags") f.message).withCause (some f.message))

/-- A line without the break at its end. -/
def dropBreak (s : Text) : Text :=
  let s := if s.getLast? = some 0x0A then s.dropLast else s
  if s.getLast? = some 0x0D then s.dropLast else s

/-- Words as one text, or what can be read if there are none. -/
def inputOf (c : Context) (words : List Text) : Except Failure Text :=
  if words.isEmpty then
    match c.setup.inputError with
    | some why =>
      .error ((Fault.internal (some why)).withDetail (utf8 "stream") (.string (utf8 "stdin")))
    | none => .ok (dropBreak c.setup.input)
  else .ok (Text.join [0x20] words)

/-- A command that works on its words or on its input. -/
def withInput (c : Context) (words : List Text) (body : Text → Ran) : Ran :=
  match c.inputOf words with
  | .ok s => body s
  | .error f => .failed f

/-- A command with a limit to the number of its words. -/
def withAtMost (field : String) (max : Nat) (words : List Text) (body : Ran) : Ran :=
  match (({} : Check.Collector).probe (.maxCount (utf8 field) words max)).verdict with
  | some f => .failed f
  | none => body

/-! ### Commands -/

def formatFlags (o : FormatOptions) : List Flag :=
  [⟨utf8 "trim", .toggle o.trim, utf8 "remove leading and trailing whitespace"⟩,
    ⟨utf8 "lowercase", .toggle o.lowercase, utf8 "convert to lower case"⟩]

def format (c : Context) (args : List Text) : Ran :=
  let o := c.config.format
  withFlags "format" (formatFlags o) args fun p =>
    c.withInput p.rest fun s =>
      let chosen : FormatOptions :=
        ⟨(p.toggle? "trim").getD o.trim, (p.toggle? "lowercase").getD o.lowercase⟩
      c.print (s.format chosen ++ [0x0A])

def parseFlags : List Flag :=
  [⟨utf8 "strict", .toggle false, utf8 "report malformed input instead of printing null"⟩]

/-- A value on a line of its own; nothing is shown as null, with a line for those who look
closer. -/
def printValue (c : Context) (s : Text) : Option (Json Number.Binary64) → Ran
  | some v =>
    match Json.encodeLine v with
    | .ok text => c.print text
    | .error why => .failed (Fault.internal (some why))
  | none =>
    (c.print (utf8 "null\n")).after <| c.setup.emit <|
      c.logger.log c.ambient Log.Level.debug (utf8 "parse produced null")
        [Log.fieldsOf [.string Log.operationKey, .string (utf8 "parse"),
          .string (utf8 "bytes"), .number (.int s.length)]]

def parse (c : Context) (args : List Text) : Ran :=
  withFlags "parse" parseFlags args fun p =>
    withAtMost "json" 1 p.rest <| c.withInput p.rest fun s =>
      if (p.toggle? "strict").getD false then
        match Json.decodeText .any s with
        | .ok v => c.printValue s v
        | .error f => .failed f
      else c.printValue s (Json.parseText .any s)

def logFlags : List Flag :=
  [⟨utf8 "prefix", .text Log.Labelled.defaultLabel, utf8 "line prefix (overrides logging.prefix)"⟩,
    ⟨utf8 "error", .toggle false, utf8 "write an error line to stderr"⟩]

def log (c : Context) (args : List Text) : Ran :=
  withFlags "log" logFlags args fun p =>
    let lines := Log.Labelled.ofConfig (some c.config.logging)
      ((p.text? "prefix").map Log.LabelOption.label).toList
    let message := Text.join [0x20] p.rest
    let write := if (p.toggle? "error").getD false then lines.error c.ambient message
      else lines.log c.ambient message
    { writes := c.setup.emit write }

def version (c : Context) (args : List Text) : Ran :=
  withAtMost "args" 0 args <| c.print ((Version.ofBuild c.setup.stamp c.setup.build).short ++ [0x0A])

end Context

def commands : List (Text × (Context → List Text → Ran)) :=
  [(utf8 "format", Context.format), (utf8 "parse", Context.parse), (utf8 "log", Context.log),
    (utf8 "version", Context.version)]

/-! ### A run -/

/-- The logger of the program's own lines. Colours are for terminals. -/
def diagnostics (s : Setup) (c : Log.Config) : Log.Logger :=
  let c := c.withDefaults
  let stream := Log.Logger.standardStream c
  .ofConfig { c with noColor := c.noColor || !stream.isTerminal s.terminal } (utf8 "cli") stream

/-- What the load of a run starts from. -/
def Setup.surroundings (s : Setup) : Config.Surroundings where
  files := s.files
  environment := s.environment
  logger := diagnostics s {}
  ambient := s.ambient s.environment
  order := s.order
  toml := s.toml

structure Outcome where
  exit : Exit
  writes : List Write

/-- The line for an error, and the exit that it leads to. -/
def fail (s : Setup) (log : Log.Logger) (a : Log.Ambient) : Stop → Outcome
  | .help => ⟨.success, []⟩
  | .other why => report (Fault.internal (some why))
  | .defect d => ⟨.defect d, [⟨noticeStream, utf8 "panic: " ++ d.message ++ [0x0A]⟩]⟩
  | .failure f => report f
where
  report (f : Failure) : Outcome :=
    let fields := [(Log.codeKey, .string f.code)]
      ++ (f.cause.map fun why => (Log.errorKey, .string why)).toList
    ⟨if Fault.isInputCode f.code then .badInput else .failure,
      s.emit (log.log a Log.Level.error f.message [Keyed.ofList fields])⟩

def Outcome.after (ws : List Write) (o : Outcome) : Outcome := { o with writes := ws ++ o.writes }

def globalFlags : List Flag := [⟨utf8 "config", .text [], utf8 "path to a config file"⟩]

def loadStop : Config.LoadError → Stop
  | .invalid f => .failure f
  | .defect d => .defect d
  | e => .other e.message

/-- A command runs with the configuration of the program. -/
def runCommand (s : Setup) (configFile : Text) (name : Text)
    (command : Context → List Text → Ran) (args : List Text) : Outcome :=
  let first := diagnostics s {}
  let a := s.ambient s.environment
  let options := [.envLead variableLead, .logger first]
    ++ if configFile.isEmpty then [] else [.configFile configFile]
  let loaded := Config.load s.surroundings programName (.ofList options) { name := programName }
  let noted := loaded.writes.flatMap fun w => s.emit (some w)
  match loaded.error with
  | some e => (fail s first a (loadStop e)).after noted
  | none =>
    let log := diagnostics s loaded.value.logging
    let a := s.ambient loaded.environment
    let started := s.emit <| log.log a Log.Level.debug (utf8 "running command")
      [Log.fieldsOf [.string Log.operationKey, .string name, .string (utf8 "environment"),
        .string loaded.value.environment]]
    let ran := command ⟨s, loaded.value, log, a⟩ args
    let outcome := match ran.stop with
      | some stop => fail s log a stop
      | none => ⟨.success, []⟩
    outcome.after (noted ++ started ++ ran.writes)

def run (s : Setup) : Outcome :=
  let log := diagnostics s {}
  let a := s.ambient s.environment
  match readFlags globalFlags false s.args with
  | .error .help =>
    (fail s log a .help).after [⟨.stderr, flagTable programName globalFlags⟩]
  | .error (.fault f) => fail s log a (.other f.message)
  | .ok p =>
    match p.rest with
    | [] => ⟨.badInput, [⟨.stderr, usage⟩]⟩
    | name :: args =>
      match commands.find? fun c => c.1 == name with
      | some (_, command) => runCommand s ((p.text? "config").getD []) name command args
      | none =>
        if name = utf8 "help" then
          ⟨.success, if s.outputError.isSome then [] else [⟨.stdout, usage⟩]⟩
        else
          let f := Fault.invalidInput (utf8 "command") (utf8 "unknown command " ++ name.quoted)
          (fail s log a (.failure f)).after [⟨.stderr, usage⟩]

/-! ### What a run may look at -/

def pathsOf (args : List Text) : List Text :=
  let given := match readFlags globalFlags false args with
    | .ok p => (p.text? "config").toList
    | .error _ => []
  given ++ Config.configSearchPaths programName ++ Config.envSearchPaths programName

/-- May a run read its standard input? -/
def wantsInput (args : List Text) : Bool :=
  let isWordless (flags : List Flag) (args : List Text) : Bool :=
    match readFlags flags true args with
    | .ok p => p.rest.isEmpty
    | .error _ => false
  match readFlags globalFlags false args with
  | .error _ => false
  | .ok p =>
    match p.rest with
    | [] => false
    | name :: args =>
      (name == utf8 "format" && isWordless (Context.formatFlags {}) args)
        || (name == utf8 "parse" && isWordless Context.parseFlags args)

end ServiceKit.Cli
