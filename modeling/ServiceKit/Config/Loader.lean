import ServiceKit.Config.Decode
import ServiceKit.Config.Files
import ServiceKit.Config.SettingsFile
import ServiceKit.Config.VariableFile
import ServiceKit.Log.Logger

/-!
A service's configuration from its files and its environment. A settings file is the base, a file of
variables adds to the environment, and variables override the settings file.
-/

namespace ServiceKit.Config

/-! ### Finding files -/

def configSearchPaths (service : Text) : List Text :=
  [utf8 "./cmd/" ++ service ++ utf8 "/config.yml", utf8 "../cmd/" ++ service ++ utf8 "/config.yml",
    utf8 "./config/config.yml", utf8 "../config/config.yml", utf8 "./config.yml",
    utf8 "./." ++ service ++ utf8 ".yml"]

/-- Where a file of variables is looked for: the service's own before the common one. -/
def envSearchPaths (service : Text) : List Text :=
  [utf8 ".env." ++ service, utf8 ".env"].flatMap fun name =>
    [utf8 "./cmd/" ++ service ++ 0x2F :: name, utf8 "./config/" ++ name, utf8 "./" ++ name]

/-- How the loader looks for files and loads variables. -/
structure Access where
  exist : Text → Bool
  /-- The environment after the load of a file of variables, and why the load failed if it did. -/
  loadEnv : Text → Environment → Environment × Option Text

/-- The assignments of a file of variables as they are gone through, or why there are none to be had. -/
def Files.assigned (files : Files) (order : MapOrder) (path : Text) :
    Except Text (List (Text × Text)) := do
  let s ← files.content path
  let found ← (VariableFile.read s).mapError VariableFile.Mistake.message
  .ok (order.arrange found)

def Files.access (files : Files) (order : MapOrder) : Access where
  exist := files.exist
  loadEnv path env := env.addAssigned (files.assigned order path)

/-- A use of the access to files. -/
inductive Call where
  | exist (path : Text)
  | loadEnv (path : Text)
deriving DecidableEq, Repr

/-- The first path of a list that exists, or no path, and the calls that it took to find out. -/
def firstExisting (a : Access) : List Text → Text × List Call
  | [] => ([], [])
  | path :: paths =>
    if a.exist path then (path, [.exist path])
    else
      let (found, calls) := firstExisting a paths
      (found, .exist path :: calls)

/-! ### Options -/

structure LoadOptions where
  configFile : Text := []
  envFile : Text := []
  /-- Only variables that start with this word and an underscore count, unless it is empty. -/
  envLead : Text := []
  access : Option Access := none
  logger : Option Log.Logger := none

/-- One choice about loading; later choices win over earlier ones. -/
inductive LoadOption where
  | configFile (path : Text)
  | envFile (path : Text)
  | envLead (word : Text)
  | access (a : Access)
  | logger (l : Log.Logger)

/-- A word for the names of variables: in capitals, without an underscore at its end. -/
def leadWord (word : Text) : Text :=
  Text.upper (if word.getLast? = some 0x5F then word.dropLast else word)

def LoadOptions.choose (o : LoadOptions) : LoadOption → LoadOptions
  | .configFile path => { o with configFile := path }
  | .envFile path => { o with envFile := path }
  | .envLead word => { o with envLead := leadWord word }
  | .access a => { o with access := some a }
  | .logger l => { o with logger := some l }

def LoadOptions.ofList (options : List LoadOption) : LoadOptions :=
  options.foldl LoadOptions.choose {}

/-- The files of a service. A path that is not known is empty. -/
structure Resolved where
  configFile : Text
  envFile : Text
  calls : List Call

/-- A path that is given is taken as it is, and another one is looked for. -/
def resolve (a : Access) (o : LoadOptions) (service : Text) : Resolved :=
  let find (given : Text) (paths : List Text) : Text × List Call :=
    if given.isEmpty then firstExisting a paths else (given, [])
  let (configFile, calls) := find o.configFile (configSearchPaths service)
  let (envFile, more) := find o.envFile (envSearchPaths service)
  ⟨configFile, envFile, calls ++ more⟩

/-! ### Loading -/

structure Surroundings where
  files : Files
  environment : Environment
  /-- The logger for loads that are given none. -/
  logger : Log.Logger
  ambient : Log.Ambient
  order : MapOrder := Text.lt
  toml : SettingsFile.TomlReader := fun _ => .error (utf8 "decoder not found for this format")

/-- The access of loads that are given none. -/
def Surroundings.access (s : Surroundings) : Access := s.files.access s.order

inductive LoadError where
  | file (path : Text) (mistake : SettingsFile.Mistake)
  | decode (service : Text) (mismatches : List Mismatch)
  | invalid (failure : Failure)
  /-- The load does not come to an end, and neither does the program around it. -/
  | defect (d : Defect)

namespace LoadError

def message : LoadError → Text
  | file path mistake => utf8 "failed to read config file " ++ path ++ utf8 ": " ++ mistake.message
  | decode service mismatches =>
    utf8 "failed to unmarshal config for service " ++ service ++ utf8 ": "
      ++ Mismatch.report mismatches
  | invalid failure => failure.text
  | defect d => d.message

/-- The error for a settings file. -/
def ofMistake (path : Text) : SettingsFile.Mistake → LoadError
  | .yaml (.defect d) => defect d
  | mistake => file path mistake

end LoadError

/-- A result with everything else that a load does. -/
structure Loaded (α : Type) where
  value : α
  error : Option LoadError
  environment : Environment
  writes : List Log.Write
  calls : List Call

/-- Does a path that is known exist? -/
def isThere (a : Access) (path : Text) : Bool × List Call :=
  if path.isEmpty then (false, []) else (a.exist path, [.exist path])

/-- The environment after the file of variables, and the lines that are logged: a file that cannot be
loaded is passed over with a warning. -/
def loadVariables (a : Access) (log : Log.Logger) (ambient : Log.Ambient) (path : Text)
    (env : Environment) : Environment × List Log.Write :=
  let loaded := a.loadEnv path env
  (loaded.1, match loaded.2 with
    | none => []
    | some why => (log.log ambient Log.Level.warn (utf8 "failed to load .env file")
      [Log.fieldsOf [.string Log.fileKey, .string path, .string Log.errorKey, .string why]]).toList)

/-- All settings of a service whose files are known. A settings file that cannot be read ends the
load before variables are looked at. -/
def gatherFrom (s : Surroundings) (o : LoadOptions) (found : Resolved) :
    Loaded (Except LoadError Tree) :=
  let a := o.access.getD s.access
  let log := (o.logger.getD s.logger).withComponent (utf8 "config")
  let (hasConfig, calls) := isThere a found.configFile
  let calls := found.calls ++ calls
  let file := if hasConfig then
      SettingsFile.read s.order s.toml s.environment found.configFile
        (s.files.content found.configFile)
    else .ok []
  match file with
  | .error mistake =>
    let e := LoadError.ofMistake found.configFile mistake
    ⟨.error e, some e, s.environment, [], calls⟩
  | .ok file =>
    let writes := if hasConfig then
        (log.log s.ambient Log.Level.debug (utf8 "config file loaded")
          [Log.fieldsOf [.string Log.fileKey, .string found.configFile]]).toList
      else []
    let (hasEnv, more) := isThere a found.envFile
    let (env, warnings) := if hasEnv then
        loadVariables a log s.ambient found.envFile s.environment
      else (s.environment, [])
    let settings := (({ file := file } : Layers).bind o.envLead env).merged.mapError LoadError.defect
    ⟨settings, none, env, writes ++ warnings,
      calls ++ more ++ if hasEnv then [.loadEnv found.envFile] else []⟩

def gather (s : Surroundings) (service : Text) (o : LoadOptions) :
    Loaded (Except LoadError Tree) :=
  gatherFrom s o (resolve (o.access.getD s.access) o service)

/-- Settings that are not decoded. There are none if they cannot be had. -/
def settingsFrom (g : Loaded (Except LoadError Tree)) : Loaded Tree :=
  match g.value with
  | .ok t => { g with value := t }
  | .error e => { g with value := [], error := some e }

def loadSettings (s : Surroundings) (service : Text) (o : LoadOptions) : Loaded Tree :=
  settingsFrom (gather s service o)

/-- Settings decoded into a configuration. Fields without a setting keep their values, and so do all
fields if there is no decoding at all. -/
def decodeInto (service : Text) (c : ServiceConfig) (g : Loaded (Except LoadError Tree)) :
    Loaded ServiceConfig :=
  match g.value with
  | .error e => { g with value := c, error := some e }
  | .ok t =>
    let (c, mismatches) := decodeService c t
    { g with
      value := c
      error := if mismatches.isEmpty then none else some (.decode service mismatches) }

def loadConfig (s : Surroundings) (service : Text) (o : LoadOptions) (c : ServiceConfig) :
    Loaded ServiceConfig :=
  decodeInto service c (gather s service o)

/-- A configuration after loading: the name of the service is filled in, then defaults. -/
def complete (service : Text) (c : ServiceConfig) : ServiceConfig :=
  { c with name := Log.Config.filled c.name service }.withDefaults

/-- What is loaded without an error is completed, and what comes out is checked. -/
def finish (service : Text) (l : Loaded ServiceConfig) : Loaded ServiceConfig :=
  match l.error with
  | some _ => l
  | none =>
    let c := complete service l.value
    { l with value := c, error := c.problem?.map .invalid }

def load (s : Surroundings) (service : Text) (o : LoadOptions) (c : ServiceConfig) :
    Loaded ServiceConfig :=
  finish service (loadConfig s service o c)

end ServiceKit.Config
