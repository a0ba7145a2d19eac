import Mathlib
import ServiceKit.Proofs.Cli.Arguments
import ServiceKit.Proofs.Config.Labelling
import ServiceKit.Proofs.Log.Levels

/-!
The command that writes a line with a label. The label is that of the last flag, else that of the
variable for it, which the process or a file of variables may have set, else that of the settings file,
and else the one for all lines. An empty label is a label.
-/

namespace ServiceKit

namespace Config

variable {s : Surroundings} {service : Text} {o : LoadOptions}

theorem fileNotes_of_lower (h : Log.Level.debug < (loggerOf s o).level) :
    fileNotes s service o = [] := by
  unfold fileNotes
  split
  · rw [Log.Logger.log_of_lower h]
    rfl
  · rfl

theorem variableNotes_of_assignments (haccess : o.access = none) {entries : List (Text × Text)}
    (h : assignmentsOf s service o = .ok entries) : variableNotes s service o = [] := by
  unfold assignmentsOf at h
  unfold variableNotes
  split at h
  next hthere =>
    have hload : attemptOf s service o = (s.environment.addMissing entries, none) := by
      rw [attemptOf_eq haccess, h]
      rfl
    rw [envFileOf] at hthere
    rw [attemptOf, envFileOf] at hload
    rw [if_pos hthere, loadVariables, hload]
  next hthere => exact congrArg Prod.snd (if_neg hthere)

/-- A load whose files can be loaded says nothing that is worth more than a debug line. -/
theorem load_writes_of_assignments (haccess : o.access = none) {entries : List (Text × Text)}
    (h : assignmentsOf s service o = .ok entries) (hlevel : Log.Level.debug < (loggerOf s o).level)
    (c : ServiceConfig) : (load s service o c).writes = [] := by
  rw [load_writes, gather_writes]
  split
  · rfl
  · rw [fileNotes_of_lower hlevel, variableNotes_of_assignments haccess h]
    rfl

end Config

namespace Cli

open Log (Labelled Stream Write)
open Config (Field NoLaterSection NoOtherLabel OwnsLabel fileLabel?)

/-! ### Flags -/

inductive LogFlag where
  | label (text : Text)
  | error
deriving DecidableEq, Repr

namespace LogFlag

def arg : LogFlag → Text
  | label text => utf8 "--prefix=" ++ text
  | error => utf8 "--error"

def name : LogFlag → Text
  | label _ => utf8 "prefix"
  | error => utf8 "error"

def value : LogFlag → FlagValue
  | label text => .text text
  | error => .toggle true

def label? : LogFlag → Option Text
  | label text => some text
  | error => none

/-- The label that flags choose: that of the last one that has one. -/
def chosen? (flags : List LogFlag) : Option Text := (flags.filterMap label?).getLast?

def values (flags : List LogFlag) (start : Keyed FlagValue) : Keyed FlagValue :=
  flags.foldl (fun vs f => Keyed.put f.name f.value vs) start

theorem ofText_arg (f : LogFlag) :
    Argument.ofText Context.logFlags f.arg = .ok (.value f.name f.value) := by
  cases f <;> rfl

theorem readFrom_args (flags : List LogFlag) (start : Keyed FlagValue) (words : List Text) :
    readFrom Context.logFlags true start (flags.map arg ++ utf8 "--" :: words) =
      .ok ⟨values flags start, words⟩ := by
  induction flags generalizing start with
  | nil => exact readFrom_stop rfl start words
  | cons f flags ih =>
      rw [List.map_cons, List.cons_append, readFrom_value f.ofText_arg]
      exact ih _

theorem text?_values (flags : List LogFlag) (start : Keyed FlagValue) (rest : List Text) :
    (⟨values flags start, rest⟩ : Parsed).text? "prefix" =
      (chosen? flags).or ((⟨start, rest⟩ : Parsed).text? "prefix") := by
  induction flags generalizing start with
  | nil => rfl
  | cons f flags ih =>
      refine (ih (Keyed.put f.name f.value start)).trans ?_
      cases f with
      | label text =>
          have hput : (⟨Keyed.put (label text).name (label text).value start, rest⟩ : Parsed).text?
              "prefix" = some text := by
            rw [Parsed.text?, name, Keyed.find?_put_self]
            rfl
          have hcons : chosen? (label text :: flags) = some ((chosen? flags).getD text) :=
            List.getLast?_cons
          rw [hput, hcons]
          cases chosen? flags <;> rfl
      | error =>
          have hput : (⟨Keyed.put error.name error.value start, rest⟩ : Parsed).text? "prefix" =
              (⟨start, rest⟩ : Parsed).text? "prefix" := by
            rw [Parsed.text?, name, Keyed.find?_put_of_ne (by decide)]
            rfl
          rw [hput]
          rfl

theorem toggle?_values (flags : List LogFlag) (start : Keyed FlagValue) (rest : List Text) :
    (⟨values flags start, rest⟩ : Parsed).toggle? "error" =
      if error ∈ flags then some true else (⟨start, rest⟩ : Parsed).toggle? "error" := by
  induction flags generalizing start with
  | nil => rfl
  | cons f flags ih =>
      refine (ih (Keyed.put f.name f.value start)).trans ?_
      cases f with
      | label text =>
          have hput : (⟨Keyed.put (label text).name (label text).value start, rest⟩ : Parsed).toggle?
              "error" = (⟨start, rest⟩ : Parsed).toggle? "error" := by
            rw [Parsed.toggle?, name, Keyed.find?_put_of_ne (by decide)]
            rfl
          rw [hput]
          simp
      | error =>
          have hput : (⟨Keyed.put error.name error.value start, rest⟩ : Parsed).toggle? "error" =
              some true := by
            rw [Parsed.toggle?, name, Keyed.find?_put_self]
            rfl
          rw [hput]
          simp

end LogFlag

/-! ### Lines -/

/-- A line with a label, for a message or for an error. -/
def labelledLine (isError : Bool) (label message : Text) : Write :=
  if isError then ⟨.stderr, label.sanitize ++ utf8 " [ERROR] " ++ message.sanitize ++ utf8 "\n"⟩
  else ⟨.stdout, label.sanitize ++ utf8 " " ++ message.sanitize ++ utf8 "\n"⟩

theorem ofConfig_label (c : Log.Config) (label? : Option Text) :
    Labelled.ofConfig (some c) (label?.map Log.LabelOption.label).toList =
      ⟨(label?.or c.label).getD Labelled.defaultLabel, .stdout, .stderr⟩ := by
  rw [Labelled.ofConfig, Option.bind_some]
  cases c.label <;> cases label? <;> rfl

theorem Context.log_eq {c : Context} (houtput : c.setup.outputError = none)
    (hleast : c.ambient.leastLevel ≤ Log.Level.unlevelled) (flags : List LogFlag) (words : List Text) :
    c.log (flags.map LogFlag.arg ++ utf8 "--" :: words) =
      { writes := [labelledLine (decide (LogFlag.error ∈ flags))
          (((LogFlag.chosen? flags).or c.config.logging.label).getD Labelled.defaultLabel)
          (Text.join [0x20] words)] } := by
  have hemit (w : Write) : c.setup.emit (some w) = [w] := by
    rw [Setup.emit, houtput]
  have hlabel : (⟨LogFlag.values flags [], words⟩ : Parsed).text? "prefix" = LogFlag.chosen? flags :=
    (LogFlag.text?_values flags [] words).trans Option.or_none
  have herror : ((⟨LogFlag.values flags [], words⟩ : Parsed).toggle? "error").getD false =
      decide (LogFlag.error ∈ flags) := by
    rw [LogFlag.toggle?_values]
    by_cases h : LogFlag.error ∈ flags
    · rw [if_pos h, decide_eq_true h]
      rfl
    · rw [if_neg h, decide_eq_false h]
      rfl
  rw [log, withFlags, readFlags, LogFlag.readFrom_args]
  simp only [hlabel, herror, ofConfig_label]
  rw [labelledLine]
  split
  · rw [Labelled.error, Labelled.write_eq, if_pos hleast, hemit, Labelled.sanitize_error]
  · rw [Labelled.log, Labelled.write_eq, if_pos hleast, hemit, Labelled.sanitize_log]

/-! ### Runs -/

def labelVariable : Text := utf8 "UTILKIT_LOGGING_PREFIX"

/-- The label of a line: what the flags choose, else the variable of the process, else what a file of
variables assigns to it, else the text of the settings file. No value with a zero byte is assigned. -/
def labelFrom (flags : List LogFlag) (env : Environment) (entries : List (Text × Text))
    (file : Config.Tree) : Text :=
  ((LogFlag.chosen? flags).or <| (Environment.find? labelVariable env).or <|
    ((Environment.find? labelVariable entries).filter fun value => !value.contains 0).or <|
      fileLabel? file).getD Labelled.defaultLabel

theorem isSettable_labelVariable (value : Text) :
    Environment.isSettable labelVariable value = !value.contains 0 := rfl

theorem own_labelVariable :
    ∃ k ∈ Config.Layers.boundName? variableLead labelVariable,
      0x2E ∉ k ∧ Field.label.key ∈ Config.keyVariants k := by
  refine ⟨utf8 "LOGGING_PREFIX", ?_, ?_, ?_⟩ <;> decide

theorem ofText_log : Argument.ofText globalFlags (utf8 "log") = .ok .plain := rfl

theorem find?_log :
    (commands.find? fun c => c.1 == utf8 "log") = some (utf8 "log", Context.log) := rfl

theorem debug_lt_diagnostics {s : Setup} {c : Log.Config} (hlevel : c.level ∈ Log.Config.levels)
    (hquiet : c.level ∉ [utf8 "trace", utf8 "debug"]) :
    Log.Level.debug < (diagnostics s c).level := by
  have hconfigured : ∀ level ∈ Log.Config.levels, level ∉ [utf8 "trace", utf8 "debug"] →
      Log.Level.debug < Log.Level.configured (Log.Config.filled level (utf8 "info")) := by
    decide
  exact hconfigured c.level hlevel hquiet

theorem debug_lt_first (s : Setup) : Log.Level.debug < (diagnostics s {}).level := by
  have hlevel : (diagnostics s {}).level = Log.Level.info := rfl
  rw [hlevel]
  decide

namespace Setup

variable {s : Setup} {config : Option Text} {entries : List (Text × Text)}

theorem leastLevel_ambient (s : Setup) (env : Environment) :
    (s.ambient env).leastLevel ≤ Log.Level.unlevelled := by
  have hleast : (s.ambient env).leastLevel = Log.Level.trace := rfl
  rw [hleast]
  decide

/-- What the file of variables of a run assigns, if one is found. -/
def assignments (s : Setup) (config : Option Text) : Except Text (List (Text × Text)) :=
  Config.assignmentsOf s.surroundings programName (s.optionsFor config)

def settings (s : Setup) (config : Option Text) : Except Config.SettingsFile.Mistake Config.Tree :=
  Config.fileOf s.surroundings programName (s.optionsFor config)

def layers (s : Setup) (config : Option Text) : Config.Layers :=
  Config.layersOf s.surroundings programName (s.optionsFor config)

theorem loadFor_label {file : Config.Tree} (hentries : s.assignments config = .ok entries)
    (hfile : s.settings config = .ok file) (hpoint : Keyed.find? Field.label.key file = none)
    (hvars : OwnsLabel variableLead labelVariable (s.environment.addMissing entries))
    (hhidden : Environment.find? labelVariable (s.environment.addMissing entries) = none →
      (Config.plain? (Config.Tree.look Field.label.path file)).isSome = true →
        Config.isHidden (s.layers config) (utf8 "logging") = false)
    (hload : (s.loadFor config).error = none) :
    (s.loadFor config).value.logging.label =
      (Environment.find? labelVariable s.environment).or
        (((Environment.find? labelVariable entries).filter fun value => !value.contains 0).or
          (fileLabel? file)) := by
  have hlead : (s.optionsFor config).envLead = variableLead :=
    (s.loadOptions_envLead _).trans (by decide)
  have hvariables : Config.variablesOf s.surroundings programName (s.optionsFor config) =
      s.environment.addMissing entries :=
    Config.variablesOf_of_assignments (s.loadOptions_access _) hentries
  rw [← hlead, ← hvariables] at hvars
  rw [← hvariables] at hhidden
  have hlabel := Config.load_label hfile hvars hpoint hhidden hload
  have hassigned := Config.nodup_assignmentsOf hentries
  rw [hvariables, Environment.find?_addMissing_of_distinct hassigned] at hlabel
  simp only [isSettable_labelVariable] at hlabel
  rw [Option.or_assoc, Option.or_none] at hlabel
  exact hlabel

theorem notes_eq_nil (hentries : s.assignments config = .ok entries)
    (hlevel : (s.loadFor config).value.logging.level ∈ Log.Config.levels)
    (hquiet : (s.loadFor config).value.logging.level ∉ [utf8 "trace", utf8 "debug"]) (name : Text) :
    s.notes name (s.loadFor config) = [] := by
  have hwrites : (s.loadFor config).writes = [] := by
    apply Config.load_writes_of_assignments (s.loadOptions_access _) hentries
    rw [loggerOf_loadOptions]
    exact debug_lt_first s
  rw [notes, hwrites, Log.Logger.log_of_lower (debug_lt_diagnostics hlevel hquiet)]
  rfl

end Setup

/-- A run that succeeds and says nothing of itself writes its line and nothing else, to the stream that
was asked for. No other variable may have the key of the label, and none that follows the variable for
it the key of its section. If only the settings file has a label, its section must not be hidden. -/
theorem run_log_labelled (s : Setup) (config : Option Text) (flags : List LogFlag) (words : List Text)
    (entries : List (Text × Text)) {file : Config.Tree} (houtput : s.outputError = none)
    (hdistinct : (s.environment.map Prod.fst).Nodup)
    (hentries : s.assignments config = .ok entries) (hfile : s.settings config = .ok file)
    (hpoint : Keyed.find? Field.label.key file = none)
    (halone : NoOtherLabel variableLead labelVariable (s.environment.addMissing entries))
    (hlast : NoLaterSection variableLead labelVariable (s.environment.addMissing entries))
    (hhidden : Environment.find? labelVariable (s.environment.addMissing entries) = none →
      (Config.plain? (Config.Tree.look Field.label.path file)).isSome = true →
        Config.isHidden (s.layers config) (utf8 "logging") = false)
    (hquiet : (s.loadFor config).value.logging.level ∉ [utf8 "trace", utf8 "debug"])
    (hcode : (run (s.command config (utf8 "log")
      (flags.map LogFlag.arg ++ utf8 "--" :: words))).exit.code = 0) :
    (run (s.command config (utf8 "log") (flags.map LogFlag.arg ++ utf8 "--" :: words))).writes =
      [labelledLine (decide (LogFlag.error ∈ flags)) (labelFrom flags s.environment entries file)
        (Text.join [0x20] words)] := by
  rw [run_command s config ofText_log find?_log] at hcode ⊢
  have hload := error_eq_none_of_conclude hcode
  have hnotes := Setup.notes_eq_nil hentries (Config.logging_of_load hload).1 hquiet (utf8 "log")
  have hvars : OwnsLabel variableLead labelVariable (s.environment.addMissing entries) :=
    ⟨Environment.nodup_addMissing hdistinct (Config.nodup_assignmentsOf hentries), own_labelVariable,
      halone, hlast⟩
  have hlabel := Setup.loadFor_label hentries hfile hpoint hvars hhidden hload
  have hran := Context.log_eq (c := (s.command config (utf8 "log")
    (flags.map LogFlag.arg ++ utf8 "--" :: words)).context (s.loadFor config)) houtput
    (s.leastLevel_ambient _) flags words
  rw [conclude_of_success hload (congrArg Ran.stop hran), hran]
  -- neither the lines before the command nor its label depend on the arguments
  change s.notes (utf8 "log") (s.loadFor config) ++ [labelledLine _ (Option.getD (Option.or _
    (s.loadFor config).value.logging.label) _) _] = _
  rw [hnotes, hlabel]
  rfl

def loggingSetup (env : Environment) (files : List (Text × Text)) : Setup where
  args := []
  environment := env
  files := Config.Files.ofList (files.map fun f => (f.1, .file f.2))
  now := ⟨2024, 1, 2, 3, 4, 5, 0, .utc⟩

/-- A settings file with a label, beside variables that a file assigns. -/
def layeredSetup (assignments : Text) : Setup :=
  loggingSetup [(utf8 "UTILKIT_LOGGING_FORMAT", utf8 "json")]
    [(utf8 ".env", assignments), (utf8 "config.yml", utf8 "logging:\n  prefix: file\n")]

theorem settings_layeredSetup (assignments : Text)
    (h : ((layeredSetup assignments).settings none).toOption.any (fun file =>
      (Keyed.find? Field.label.key file).isNone && fileLabel? file == some (utf8 "file")) = true) :
    ∃ file, (layeredSetup assignments).settings none = .ok file ∧
      Keyed.find? Field.label.key file = none ∧ fileLabel? file = some (utf8 "file") := by
  cases hsettings : (layeredSetup assignments).settings none with
  | error e =>
      rw [hsettings] at h
      cases h
  | ok file =>
      rw [hsettings] at h
      obtain ⟨hpoint, hlabel⟩ := Bool.and_eq_true_iff.mp h
      exact ⟨file, rfl, Option.isNone_iff_eq_none.mp hpoint, eq_of_beq hlabel⟩

/-- The label of the settings file, and an empty one that a variable puts in its place. -/
theorem run_log_labelled_layers :
    (run ((layeredSetup []).command none (utf8 "log") [utf8 "--", utf8 "--error"])).writes =
      [⟨.stdout, utf8 "file --error\n"⟩] ∧
    (run ((layeredSetup (utf8 "UTILKIT_LOGGING_PREFIX=\n")).command none (utf8 "log")
        [utf8 "--error", utf8 "--", utf8 "a", utf8 "b"])).writes =
      [⟨.stderr, utf8 " [ERROR] a b\n"⟩] := by
  constructor
  · obtain ⟨file, hfile, hpoint, hlabel⟩ := settings_layeredSetup [] (by decide +kernel)
    refine (run_log_labelled (layeredSetup []) none [] [utf8 "--error"] [] rfl
      (by decide +kernel) rfl hfile hpoint (by decide +kernel) (by decide +kernel)
      (fun _ _ => by decide +kernel) (by decide +kernel) (by decide +kernel)).trans ?_
    have hfrom : labelFrom [] (layeredSetup []).environment [] file = utf8 "file" := by
      rw [labelFrom, hlabel]
      decide +kernel
    rw [hfrom]
    decide +kernel
  · obtain ⟨file, hfile, hpoint, hlabel⟩ :=
      settings_layeredSetup (utf8 "UTILKIT_LOGGING_PREFIX=\n") (by decide +kernel)
    refine (run_log_labelled (layeredSetup (utf8 "UTILKIT_LOGGING_PREFIX=\n")) none [.error]
      [utf8 "a", utf8 "b"] [(labelVariable, [])] rfl (by decide +kernel) rfl hfile hpoint
      (by decide +kernel) (by decide +kernel) (fun hunset => absurd hunset (by decide +kernel))
      (by decide +kernel) (by decide +kernel)).trans ?_
    have hfrom : labelFrom [.error] (layeredSetup (utf8 "UTILKIT_LOGGING_PREFIX=\n")).environment
        [(labelVariable, [])] file = [] := by
      rw [labelFrom, hlabel]
      decide +kernel
    rw [hfrom]
    decide +kernel

/-- The variable for the label comes before one for its section. -/
def replacedLabel : Setup :=
  loggingSetup [(labelVariable, utf8 "p"), (utf8 "UTILKIT_LOGGING", utf8 "x"),
    (utf8 "UTILKIT_LOGGING_FORMAT", utf8 "json")] []

/-- Variables hide the section that has a label in the settings file. -/
def hiddenLabel : Setup :=
  loggingSetup [(utf8 "UTILKIT__LOGGING", utf8 "x"), (utf8 "UTILKIT_LOGGING_FORMAT", utf8 "json")]
    [(utf8 "config.yml", utf8 "logging:\n  prefix: file\n")]

def zeroLabel : Setup := layeredSetup (utf8 "UTILKIT_LOGGING_PREFIX=a\x00b\n")

/-- A label may be set, with no other variable for it, and not be the one of the line. -/
theorem run_log_label_lost :
    let ran (s : Setup) := run (s.command none (utf8 "log") [utf8 "--", utf8 "hi"])
    let level (s : Setup) := (s.loadFor none).value.logging.level
    (Environment.find? labelVariable replacedLabel.environment = some (utf8 "p") ∧
      NoOtherLabel variableLead labelVariable replacedLabel.environment ∧
      level replacedLabel = utf8 "info" ∧ (ran replacedLabel).exit.code = 0 ∧
      (ran replacedLabel).writes = [labelledLine false Labelled.defaultLabel (utf8 "hi")]) ∧
    ((hiddenLabel.settings none).toOption.bind fileLabel? = some (utf8 "file") ∧
      NoOtherLabel variableLead labelVariable hiddenLabel.environment ∧
      level hiddenLabel = utf8 "info" ∧ (ran hiddenLabel).exit.code = 0 ∧
      (ran hiddenLabel).writes = [labelledLine false Labelled.defaultLabel (utf8 "hi")]) ∧
    ((zeroLabel.assignments none).toOption = some [(labelVariable, utf8 "a\x00b")] ∧
      NoOtherLabel variableLead labelVariable zeroLabel.environment ∧
      level zeroLabel = utf8 "info" ∧ (ran zeroLabel).exit.code = 0 ∧
      (ran zeroLabel).writes = [labelledLine false (utf8 "file") (utf8 "hi")]) := by
  decide +kernel

end Cli

end ServiceKit
