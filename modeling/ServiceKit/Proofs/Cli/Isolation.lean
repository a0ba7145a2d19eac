import Mathlib
import ServiceKit.Cli.Run
import ServiceKit.Proofs.Config.Binding
import ServiceKit.Proofs.Config.References

/-!
What a run of the program sees of its environment: its own variables, and those that its settings file
refers to. Everything else, a wish for no colours included, makes no difference where no stream ends at
a terminal.
-/

namespace ServiceKit

open Text

/-! ### Lines without colours -/

namespace Log

/-- Surroundings of a call that are alike but for the wish for no colours. -/
def Ambient.Alike (a a' : Ambient) : Prop := a' = { a with quiet := a'.quiet }

def Logger.isColourless (l : Logger) : Bool :=
  match l.form with
  | .json => true
  | .console style => style.noColor

theorem Console.line_alike {c : Console} (hc : c.noColor = true) {a a' : Ambient} (h : a.Alike a')
    (event : Text) : c.line a event = c.line a' event := by
  unfold Console.line Console.lineOf
  rw [hc, h]
  rfl

/-- A logger without colours writes the same whether colours are wanted or not. -/
theorem Logger.log_alike {l : Logger} (hl : l.isColourless = true) {a a' : Ambient} (h : a.Alike a')
    (level : Level) (message : Text) (fields : List (Keyed Detail)) :
    l.log a level message fields = l.log a' level message fields := by
  have hdeliver : ∀ event, l.deliver a event = l.deliver a' event := by
    intro event
    rw [Logger.deliver, Logger.deliver]
    unfold Logger.isColourless at hl
    cases hform : l.form with
    | json => rfl
    | console style =>
        rw [hform] at hl
        simp only
        rw [Console.line_alike hl h]
  have hevent : l.event a level message fields = l.event a' level message fields := by
    rw [h]
    rfl
  have henabled : l.enabled a level = l.enabled a' level := by
    rw [h]
    rfl
  rw [Logger.log, Logger.log, henabled, hevent, hdeliver]

theorem Labelled.write_alike {a a' : Ambient} (h : a.Alike a') (stream : Stream) (text : Text) :
    Labelled.write a stream text = Labelled.write a' stream text :=
  Logger.log_alike rfl h _ _ _

end Log

/-! ### Loads -/

namespace Config

theorem flatMap_writes_only {lead : Text} {keep : Text → Bool}
    (hkeep : ∀ n, keep n = false → Layers.boundName? lead n = none) (env : Environment) :
    (env.only keep).flatMap (Layers.writes lead) = env.flatMap (Layers.writes lead) := by
  induction env with
  | nil => rfl
  | cons e env ih =>
      rw [Environment.only, List.filter_cons]
      split
      · rw [List.flatMap_cons, List.flatMap_cons]
        exact congrArg _ ih
      · rename_i he
        have hnone : Layers.writes lead e = [] := by
          rw [Layers.writes, hkeep e.1 (by simpa using he)]
        rw [List.flatMap_cons, hnone]
        exact ih

theorem layersOf_congr {s : Surroundings} {service : Text} {o : LoadOptions} {keep : Text → Bool}
    (haccess : (accessOf s o).Adds)
    (hkeep : ∀ n, keep n = false → Layers.boundName? o.envLead n = none) {env env' : Environment}
    (honly : env.only keep = env'.only keep)
    (hfile : fileOf { s with environment := env } service o =
      fileOf { s with environment := env' } service o) :
    layersOf { s with environment := env } service o =
      layersOf { s with environment := env' } service o := by
  rw [layersOf, layersOf, Layers.bind_eq, Layers.bind_eq, hfile, ← flatMap_writes_only hkeep,
    only_variablesOf service haccess honly, flatMap_writes_only hkeep]

def loggerOf (s : Surroundings) (o : LoadOptions) : Log.Logger :=
  (o.logger.getD s.logger).withComponent (utf8 "config")

/-- What a load says of its settings file. -/
def fileNotes (s : Surroundings) (service : Text) (o : LoadOptions) : List Log.Write :=
  if (isThere (accessOf s o) (configFileOf s service o)).1 then
    ((loggerOf s o).log s.ambient Log.Level.debug (utf8 "config file loaded")
      [Log.fieldsOf [.string Log.fileKey, .string (configFileOf s service o)]]).toList
  else []

/-- What a load says of a file of variables that cannot be loaded. -/
def variableNotes (s : Surroundings) (service : Text) (o : LoadOptions) : List Log.Write :=
  (if (isThere (accessOf s o) (resolve (accessOf s o) o service).envFile).1 then
    loadVariables (accessOf s o) (loggerOf s o) s.ambient (resolve (accessOf s o) o service).envFile
      s.environment
  else (s.environment, [])).2

theorem gather_writes (s : Surroundings) (service : Text) (o : LoadOptions) :
    (gather s service o).writes =
      match fileOf s service o with
      | .error _ => []
      | .ok _ => fileNotes s service o ++ variableNotes s service o := by
  change (match fileOf s service o with
    | .error mistake => _
    | .ok file => _ : Loaded (Except LoadError Tree)).writes = _
  cases fileOf s service o <;> rfl

theorem Access.Adds.loadVariables_snd {a : Access} (ha : a.Adds) {log : Log.Logger}
    (hlog : log.isColourless = true) {m m' : Log.Ambient} (hm : m.Alike m') (path : Text)
    (env env' : Environment) :
    (loadVariables a log m path env).2 = (loadVariables a log m' path env').2 := by
  obtain ⟨r, hr⟩ := ha path
  rw [loadVariables, loadVariables, hr, hr]
  cases r with
  | ok added => rfl
  | error why => exact congrArg Option.toList (Log.Logger.log_alike hlog hm _ _ _)

theorem fileNotes_congr {s : Surroundings} {o : LoadOptions}
    (hlog : (loggerOf s o).isColourless = true) {m : Log.Ambient} (hm : s.ambient.Alike m)
    (service : Text) (env : Environment) :
    fileNotes s service o = fileNotes { s with environment := env, ambient := m } service o := by
  unfold fileNotes
  rw [Log.Logger.log_alike hlog hm]
  rfl

theorem variableNotes_congr {s : Surroundings} {o : LoadOptions} (haccess : (accessOf s o).Adds)
    (hlog : (loggerOf s o).isColourless = true) {m : Log.Ambient} (hm : s.ambient.Alike m)
    (service : Text) (env : Environment) :
    variableNotes s service o =
      variableNotes { s with environment := env, ambient := m } service o := by
  have hload := haccess.loadVariables_snd hlog hm (resolve (accessOf s o) o service).envFile
    s.environment env
  change _ = (if (isThere (accessOf s o) (resolve (accessOf s o) o service).envFile).1 then
    loadVariables (accessOf s o) (loggerOf s o) m (resolve (accessOf s o) o service).envFile env
    else (env, [])).2
  unfold variableNotes
  split
  · exact hload
  · rfl

/-- A load in surroundings that are alike but for variables that it has no use for. -/
theorem load_congr {s : Surroundings} {service : Text} {o : LoadOptions} {c : ServiceConfig}
    {keep : Text → Bool} {env : Environment} {m : Log.Ambient} (haccess : (accessOf s o).Adds)
    (hkeep : ∀ n, keep n = false → Layers.boundName? o.envLead n = none)
    (honly : s.environment.only keep = env.only keep)
    (hrefs : ∀ n ∈ referencesOf s service o, s.environment.find? n = env.find? n)
    (hlog : (loggerOf s o).isColourless = true) (hm : s.ambient.Alike m) :
    (load { s with environment := env, ambient := m } service o c).value =
        (load s service o c).value ∧
      (load { s with environment := env, ambient := m } service o c).error =
        (load s service o c).error ∧
      (load { s with environment := env, ambient := m } service o c).writes =
        (load s service o c).writes := by
  have hfile : fileOf s service o = fileOf { s with environment := env, ambient := m } service o :=
    fileOf_congr hrefs
  have hlayers : layersOf s service o =
      layersOf { s with environment := env, ambient := m } service o :=
    layersOf_congr haccess hkeep honly hfile
  have hgather : (gather s service o).value =
      (gather { s with environment := env, ambient := m } service o).value := by
    rw [gather_value, gather_value, ← hfile, ← hlayers]
    rfl
  have hwrites : (gather s service o).writes =
      (gather { s with environment := env, ambient := m } service o).writes := by
    rw [gather_writes, gather_writes, ← hfile, ← fileNotes_congr hlog hm,
      ← variableNotes_congr haccess hlog hm]
  have houtcome := load_outcome { s with environment := env, ambient := m } service o c
  rw [← hgather, ← load_outcome] at houtcome
  obtain ⟨hvalue, herror⟩ := Prod.mk.inj houtcome
  refine ⟨hvalue, herror, ?_⟩
  rw [load_writes, load_writes, hwrites]

end Config

/-! ### Commands -/

namespace Cli

def isOwnName (name : Text) : Bool := name.startsWith (variableLead ++ [0x5F])

theorem boundName?_of_not_own {name : Text} (h : isOwnName name = false) :
    Config.Layers.boundName? (Config.leadWord variableLead) name = none := by
  have hlead : Config.leadWord variableLead = variableLead := by decide
  rw [hlead]
  unfold isOwnName startsWith at h
  cases hdrop : dropLead? (variableLead ++ [0x5F]) name with
  | some rest =>
      rw [hdrop] at h
      cases h
  | none =>
      unfold Config.Layers.boundName?
      rw [hdrop]
      rfl

theorem alike_ambient (s : Setup) (env env' : Environment) : (s.ambient env).Alike (s.ambient env') :=
  rfl

/-- Where no stream ends at a terminal, the program's own lines have no colours. -/
theorem isColourless_diagnostics {s : Setup} (hterminal : ∀ stream, s.terminal stream = false)
    (c : Log.Config) : (diagnostics s c).isColourless = true := by
  have hstream (stream : Log.Stream) : stream.isTerminal s.terminal = false := by
    cases stream with
    | writer n => rfl
    | stdout => exact hterminal .stdout
    | stderr => exact hterminal .stderr
  unfold diagnostics
  simp only [hstream, Bool.not_false, Bool.or_true]
  unfold Log.Logger.ofConfig Log.Logger.isColourless
  simp only
  split
  · rfl
  · rename_i style hstyle
    split at hstyle
    · cases hstyle
      rfl
    · cases hstyle

theorem fail_alike {log : Log.Logger} (hlog : log.isColourless = true) {a a' : Log.Ambient}
    (ha : a.Alike a') (s : Setup) (env : Environment) (stop : Stop) :
    fail { s with environment := env } log a' stop = fail s log a stop := by
  have hreport : ∀ f, fail.report { s with environment := env } log a' f = fail.report s log a f := by
    intro f
    simp only [fail.report, Log.Logger.log_alike hlog ha]
    rfl
  cases stop with
  | help => rfl
  | defect d => rfl
  | other why => exact hreport _
  | failure f => exact hreport f

theorem printValue_alike {s : Setup} {config : Config.ServiceConfig} {logger : Log.Logger}
    (hlogger : logger.isColourless = true) {a a' : Log.Ambient} (ha : a.Alike a') (env : Environment)
    (text : Text) (v : Option (Json Number.Binary64)) :
    Context.printValue ⟨{ s with environment := env }, config, logger, a'⟩ text v =
      Context.printValue ⟨s, config, logger, a⟩ text v := by
  cases v with
  | some v => rfl
  | none =>
      unfold Context.printValue
      simp only
      rw [← Log.Logger.log_alike hlogger ha]
      rfl

/-- No command looks at the environment. -/
theorem command_alike {name : Text} {command : Context → List Text → Ran}
    (hcommand : (name, command) ∈ commands) {s : Setup} {config : Config.ServiceConfig}
    {logger : Log.Logger} (hlogger : logger.isColourless = true) {a a' : Log.Ambient}
    (ha : a.Alike a') (env : Environment) (args : List Text) :
    command ⟨{ s with environment := env }, config, logger, a'⟩ args =
      command ⟨s, config, logger, a⟩ args := by
  simp only [commands, List.mem_cons, Prod.mk.injEq, List.not_mem_nil, or_false] at hcommand
  -- `format` and `version` write no lines of a logger
  rcases hcommand with ⟨-, rfl⟩ | ⟨-, rfl⟩ | ⟨-, rfl⟩ | ⟨-, rfl⟩
  · rfl
  · refine congrArg (Context.withFlags "parse" Context.parseFlags args) (funext fun p => ?_)
    refine congrArg (Context.withAtMost "json" 1 p.rest) ?_
    refine congrArg (Context.withInput ⟨s, config, logger, a⟩ p.rest) (funext fun text => ?_)
    simp only [printValue_alike hlogger ha]
  · refine congrArg (Context.withFlags "log" Context.logFlags args) (funext fun p => ?_)
    simp only [Log.Labelled.log, Log.Labelled.error, Log.Labelled.write_alike ha]
    rfl
  · rfl

/-! ### Runs -/

def Setup.loadOptions (s : Setup) (configFile : Text) : Config.LoadOptions :=
  .ofList ([.envLead variableLead, .logger (diagnostics s {})] ++
    if configFile.isEmpty then [] else [.configFile configFile])

section

variable (s : Setup) (configFile : Text)

theorem Setup.loadOptions_envLead :
    (s.loadOptions configFile).envLead = Config.leadWord variableLead := by
  unfold loadOptions
  split <;> rfl

theorem Setup.loadOptions_access : (s.loadOptions configFile).access = none := by
  unfold loadOptions
  split <;> rfl

theorem Setup.loggerOf_loadOptions :
    Config.loggerOf s.surroundings (s.loadOptions configFile) =
      (diagnostics s {}).withComponent (utf8 "config") := by
  have hlogger : (s.loadOptions configFile).logger = some (diagnostics s {}) := by
    unfold loadOptions
    split <;> rfl
  rw [Config.loggerOf, hlogger]
  rfl

end

/-- The names that the settings file of a run refers to. -/
def Setup.references (s : Setup) : List Text :=
  match readFlags globalFlags false s.args with
  | .ok p =>
    Config.referencesOf s.surroundings programName (s.loadOptions ((p.text? "config").getD []))
  | .error _ => []

/-- What becomes of a command once the configuration is loaded. -/
def conclude (s : Setup) (name : Text) (command : Context → List Text → Ran) (args : List Text)
    (loaded : Config.Loaded Config.ServiceConfig) : Outcome :=
  let noted := loaded.writes.flatMap fun w => s.emit (some w)
  match loaded.error with
  | some e => (fail s (diagnostics s {}) (s.ambient s.environment) (loadStop e)).after noted
  | none =>
    let log := diagnostics s loaded.value.logging
    let a := s.ambient loaded.environment
    let started := s.emit <| log.log a Log.Level.debug (utf8 "running command")
      [Log.fieldsOf [.string Log.operationKey, .string name, .string (utf8 "environment"),
        .string loaded.value.environment]]
    let ran := command ⟨s, loaded.value, log, a⟩ args
    let outcome := match ran.stop with
      | some stop => fail s log a stop
      | none => ⟨.success, []⟩
    outcome.after (noted ++ started ++ ran.writes)

theorem runCommand_eq (s : Setup) (configFile name : Text) (command : Context → List Text → Ran)
    (args : List Text) :
    runCommand s configFile name command args =
      conclude s name command args
        (Config.load s.surroundings programName (s.loadOptions configFile) { name := programName }) :=
  rfl

theorem conclude_congr {s : Setup} (hterminal : ∀ stream, s.terminal stream = false) {name : Text}
    {command : Context → List Text → Ran} (hcommand : (name, command) ∈ commands) (args : List Text)
    {loaded loaded' : Config.Loaded Config.ServiceConfig} (hvalue : loaded'.value = loaded.value)
    (herror : loaded'.error = loaded.error) (hwrites : loaded'.writes = loaded.writes)
    (env : Environment) :
    conclude { s with environment := env } name command args loaded' =
      conclude s name command args loaded := by
  have hdiagnostics : ∀ c, diagnostics { s with environment := env } c = diagnostics s c := fun _ => rfl
  have hambient : ∀ e, ({ s with environment := env } : Setup).ambient e = s.ambient e := fun _ => rfl
  have hemit : ∀ w, ({ s with environment := env } : Setup).emit w = s.emit w := fun _ => rfl
  unfold conclude
  simp only [hvalue, herror, hwrites, hdiagnostics, hambient, hemit]
  cases loaded.error with
  | some e =>
      have hfail := fail_alike (isColourless_diagnostics hterminal {})
        (alike_ambient s s.environment env) s env (loadStop e)
      exact congrArg (Outcome.after _) hfail
  | none =>
      have hlog := isColourless_diagnostics hterminal loaded.value.logging
      have ha := alike_ambient s loaded.environment loaded'.environment
      simp only [command_alike hcommand hlog ha, fail_alike hlog ha, Log.Logger.log_alike hlog ha]

theorem runCommand_congr {s : Setup} {env : Environment}
    (hterminal : ∀ stream, s.terminal stream = false)
    (hown : s.environment.only isOwnName = env.only isOwnName) {configFile : Text}
    (hrefs : ∀ n ∈ Config.referencesOf s.surroundings programName (s.loadOptions configFile),
      s.environment.find? n = env.find? n)
    {name : Text} {command : Context → List Text → Ran} (hcommand : (name, command) ∈ commands)
    (args : List Text) :
    runCommand { s with environment := env } configFile name command args =
      runCommand s configFile name command args := by
  have haccess : (Config.accessOf s.surroundings (s.loadOptions configFile)).Adds := by
    unfold Config.accessOf
    rw [s.loadOptions_access]
    exact Config.Files.adds_access s.files s.order
  have hlogger : (Config.loggerOf s.surroundings (s.loadOptions configFile)).isColourless = true := by
    rw [s.loggerOf_loadOptions]
    exact isColourless_diagnostics hterminal {}
  obtain ⟨hvalue, herror, hwrites⟩ := Config.load_congr (c := { name := programName }) haccess
    (fun n hn => s.loadOptions_envLead configFile ▸ boundName?_of_not_own hn) hown hrefs hlogger
    (alike_ambient s s.environment env)
  rw [runCommand_eq, runCommand_eq]
  exact conclude_congr hterminal hcommand args hvalue herror hwrites env

/-- Runs that are alike but for their environments exit alike and write the same, if the environments
have the same variables of the program in the same order and agree on what the settings file refers
to. -/
theorem run_of_own_variables {s s' : Setup} (hs : s' = { s with environment := s'.environment })
    (hterminal : ∀ stream, s.terminal stream = false)
    (hown : s.environment.only isOwnName = s'.environment.only isOwnName)
    (hrefs : ∀ n ∈ s.references, s.environment.find? n = s'.environment.find? n) :
    run s' = run s := by
  generalize s'.environment = env at hs hown hrefs
  subst hs
  have hfail := fail_alike (isColourless_diagnostics hterminal {})
    (alike_ambient s s.environment env) s env
  unfold Setup.references at hrefs
  unfold run
  simp only
  cases hflags : readFlags globalFlags false s.args with
  | error stop =>
      cases stop with
      | help => rfl
      | fault f => exact hfail (.other f.message)
  | ok p =>
      rw [hflags] at hrefs
      simp only at hrefs ⊢
      cases p.rest with
      | nil => rfl
      | cons name args =>
          simp only
          cases hcommand : commands.find? fun c => c.1 == name with
          | some found =>
              have hmem := List.mem_of_find?_eq_some hcommand
              have hname : found.1 = name := by simpa using List.find?_some hcommand
              exact runCommand_congr hterminal hown hrefs (hname ▸ hmem) args
          | none =>
              simp only
              split
              · rfl
              · exact congrArg (Outcome.after _) (hfail (.failure _))

/-- A run that writes one line, with a settings file of assignments and a file of variables. -/
def labelSetup (settings : Text) (env : Environment) : Setup where
  args := [utf8 "--config", utf8 "s.env", utf8 "log", utf8 "hi"]
  files := Config.Files.ofList
    [(utf8 "s.env", .file settings), (utf8 ".env", .file (utf8 "UTILKIT_NAME=n\nFOO=other\n"))]
  environment := env
  now := ⟨2024, 1, 2, 3, 4, 5, 0, .utc⟩

theorem run_of_own_variables_label :
    run (labelSetup (utf8 "logging.prefix=$UTILKIT_P\n")
        [(utf8 "UTILKIT_P", utf8 "own"), (utf8 "FOO", utf8 "bar"), (utf8 "NO_COLOR", utf8 "1")]) =
      run (labelSetup (utf8 "logging.prefix=$UTILKIT_P\n")
        [(utf8 "TERM", utf8 "dumb"), (utf8 "UTILKIT_P", utf8 "own")]) :=
  run_of_own_variables rfl (fun _ => rfl) (by decide +kernel) (by decide +kernel)

/-- A settings file of assignments may refer to any variable. -/
theorem run_changed_by_reference :
    Environment.only isOwnName [(utf8 "FOO", utf8 "bar")] = Environment.only isOwnName [] ∧
      (run (labelSetup (utf8 "logging.prefix=$FOO\n") [(utf8 "FOO", utf8 "bar")])).writes =
        [⟨.stdout, utf8 "bar hi\n"⟩] ∧
      (run (labelSetup (utf8 "logging.prefix=$FOO\n") [])).writes = [⟨.stdout, utf8 " hi\n"⟩] := by
  decide +kernel

end Cli

end ServiceKit
