import Mathlib
import ServiceKit.Proofs.Cli.Failing
import ServiceKit.Proofs.Log.Lines

/-!
Runs of one command: how its arguments are read, and what the run comes to once its configuration is
loaded.
-/

namespace ServiceKit.Cli

open Log (SparesOutput Stream Write contentOf)

/-! ### One argument after the other -/

section Reading

variable {flags : List Flag} {interspersed : Bool} {arg : Text}

theorem readFrom_value {name : Text} {v : FlagValue}
    (h : Argument.ofText flags arg = .ok (.value name v)) (values : Keyed FlagValue)
    (rest : List Text) :
    readFrom flags interspersed values (arg :: rest) =
      readFrom flags interspersed (Keyed.put name v values) rest := by
  cases rest with
  | nil =>
      unfold readFrom
      rw [h]
      rfl
  | cons next rest =>
      rw [readFrom, h]
      rfl

theorem readFrom_stop (h : Argument.ofText flags arg = .ok .stop) (values : Keyed FlagValue)
    (rest : List Text) :
    readFrom flags interspersed values (arg :: rest) = .ok ⟨values, rest⟩ := by
  cases rest with
  | nil =>
      rw [readFrom, h]
      rfl
  | cons next rest =>
      rw [readFrom, h]
      rfl

theorem readFrom_plain (h : Argument.ofText flags arg = .ok .plain) (values : Keyed FlagValue)
    (rest : List Text) :
    readFrom flags false values (arg :: rest) = .ok ⟨values, arg :: rest⟩ := by
  cases rest with
  | nil =>
      rw [readFrom, h]
      rfl
  | cons next rest =>
      rw [readFrom, h]
      rfl

end Reading

/-- The argument that names a settings file, if there is one. -/
def configArgs : Option Text → List Text
  | none => []
  | some path => [utf8 "--config=" ++ path]

def configValues (config : Option Text) : Keyed FlagValue :=
  (config.map fun path => (utf8 "config", .text path)).toList

theorem ofText_config (path : Text) :
    Argument.ofText globalFlags (utf8 "--config=" ++ path) = .ok (.value (utf8 "config") (.text path)) :=
  rfl

theorem readFlags_configArgs (config : Option Text) {name : Text}
    (h : Argument.ofText globalFlags name = .ok .plain) (args : List Text) :
    readFlags globalFlags false (configArgs config ++ name :: args) =
      .ok ⟨configValues config, name :: args⟩ := by
  cases config with
  | none => exact readFrom_plain h [] args
  | some path => exact (readFrom_value (ofText_config path) [] _).trans (readFrom_plain h _ args)

theorem text?_configValues (config : Option Text) (rest : List Text) :
    (⟨configValues config, rest⟩ : Parsed).text? "config" = config := by
  cases config <;> rfl

namespace Setup

/-- The options of the load of a run that names a settings file or none. -/
def optionsFor (s : Setup) (config : Option Text) : Config.LoadOptions :=
  s.loadOptions (config.getD [])

def loadFor (s : Setup) (config : Option Text) : Config.Loaded Config.ServiceConfig :=
  Config.load s.surroundings programName (s.optionsFor config) { name := programName }

/-- The same surroundings with a command to run. -/
def command (s : Setup) (config : Option Text) (name : Text) (args : List Text) : Setup :=
  { s with args := configArgs config ++ name :: args }

/-- What a command runs with once its configuration is loaded. -/
def context (s : Setup) (loaded : Config.Loaded Config.ServiceConfig) : Context :=
  ⟨s, loaded.value, diagnostics s loaded.value.logging, s.ambient loaded.environment⟩

/-- What is written before a command runs. -/
def notes (s : Setup) (name : Text) (loaded : Config.Loaded Config.ServiceConfig) : List Write :=
  loaded.writes.flatMap (fun w => s.emit (some w)) ++
    s.emit ((diagnostics s loaded.value.logging).log (s.ambient loaded.environment) Log.Level.debug
      (utf8 "running command") [Log.fieldsOf [.string Log.operationKey, .string name,
        .string (utf8 "environment"), .string loaded.value.environment]])

end Setup

theorem sparesOutput_loadFor (s : Setup) (config : Option Text) :
    SparesOutput (s.loadFor config).writes := by
  have hload : s.loadFor config = s.load ⟨configValues config, []⟩ := by
    rw [Setup.load, text?_configValues]
    rfl
  rw [hload]
  exact sparesOutput_setup_load s _

theorem run_command (s : Setup) (config : Option Text) {name : Text} {args : List Text}
    (hname : Argument.ofText globalFlags name = .ok .plain)
    {found : Text × (Context → List Text → Ran)}
    (hfound : (commands.find? fun c => c.1 == name) = some found) :
    run (s.command config name args) =
      conclude (s.command config name args) name found.2 args (s.loadFor config) := by
  have hflags : readFlags globalFlags false (s.command config name args).args =
      .ok ⟨configValues config, name :: args⟩ := readFlags_configArgs config hname args
  rw [run_of_command hflags rfl hfound, Setup.load, text?_configValues]
  rfl

theorem code_fail_ne_zero {stop : Stop} (h : stop ≠ .help) (s : Setup) (l : Log.Logger)
    (a : Log.Ambient) : (fail s l a stop).exit.code ≠ 0 := by
  have hreport (f : Failure) : (fail.report s l a f).exit.code ≠ 0 := by
    rw [fail.report]
    split <;> exact Nat.succ_ne_zero _
  cases stop with
  | help => exact absurd rfl h
  | failure f => exact hreport f
  | other why => exact hreport (Fault.internal (some why))
  | defect d => exact Nat.succ_ne_zero _

theorem loadStop_ne_help (e : Config.LoadError) : loadStop e ≠ .help := by
  intro h
  cases e <;> cases h

section Concluding

variable {s : Setup} {name : Text} {command : Context → List Text → Ran} {args : List Text}
  {loaded : Config.Loaded Config.ServiceConfig}

theorem conclude_of_success (hload : loaded.error = none)
    (hstop : (command (s.context loaded) args).stop = none) :
    conclude s name command args loaded =
      ⟨.success, s.notes name loaded ++ (command (s.context loaded) args).writes⟩ := by
  rw [Setup.context] at hstop
  unfold conclude
  simp only [hload, hstop]
  exact congrArg (Outcome.mk .success) (List.append_nil _)

theorem conclude_of_stop (hload : loaded.error = none) {stop : Stop}
    (hstop : (command (s.context loaded) args).stop = some stop) :
    conclude s name command args loaded =
      (fail s (diagnostics s loaded.value.logging) (s.ambient loaded.environment) stop).after
        (s.notes name loaded ++ (command (s.context loaded) args).writes) := by
  rw [Setup.context] at hstop
  unfold conclude
  simp only [hload, hstop]
  rfl

/-- A run whose configuration is not loaded does not succeed. -/
theorem error_eq_none_of_conclude (h : (conclude s name command args loaded).exit.code = 0) :
    loaded.error = none := by
  cases herror : loaded.error with
  | none => rfl
  | some e =>
      unfold conclude at h
      simp only [herror] at h
      exact absurd h (code_fail_ne_zero (loadStop_ne_help e) s _ _)

/-- Where the program's own lines go to the error stream, all before the command's does. -/
theorem sparesOutput_notes (hwrites : SparesOutput loaded.writes)
    (hlog : (diagnostics s loaded.value.logging).stream ≠ .stdout) :
    SparesOutput (s.notes name loaded) := by
  apply SparesOutput.append
  · exact s.sparesOutput_flatMap_emit hwrites
  · exact s.sparesOutput_emit (Log.Logger.sparesOutput_log hlog _ _ _ _)

end Concluding

theorem contentOf_of_sparesOutput {ws : List Write} (h : SparesOutput ws) :
    contentOf .stdout ws = [] := by
  rw [contentOf, List.filter_eq_nil_iff.mpr]
  · rfl
  · intro w hw hstream
    exact h w hw (of_decide_eq_true hstream)

end ServiceKit.Cli
