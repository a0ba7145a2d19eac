import Mathlib
import ServiceKit.Proofs.Config.Appending
import ServiceKit.Proofs.Config.Completion
import ServiceKit.Proofs.Config.Fields
import ServiceKit.Proofs.Config.MergeOrder
import ServiceKit.Proofs.Config.References
import ServiceKit.Proofs.Config.SettingsFile

/-!
Loading twice. The second load finds every variable set that the first one added, and decodes the same
settings into fields that already have them, whatever the order in which it goes through its maps. Only a
settings file that refers to a variable of the environment may be read differently, since the first load
reads it before it adds variables.
-/

namespace ServiceKit

namespace Config

/-! ### Variables -/

/-- Does loading a file of variables once more change nothing? -/
def Access.Settles (a : Access) : Prop :=
  ∀ path env, (a.loadEnv path (a.loadEnv path env).1).1 = (a.loadEnv path env).1

variable {s : Surroundings} {service : Text} {o : LoadOptions}

/-- The files assign nothing the second time that was not assigned the first time, in whatever order. -/
theorem addAssigned_again (files : Files) (path : Text) (order order' : MapOrder) (env : Environment) :
    ((env.addAssigned (files.assigned order path)).1.addAssigned (files.assigned order' path)).1 =
      (env.addAssigned (files.assigned order path)).1 := by
  rcases files.assigned_cases path with ⟨why, hwhy⟩ | ⟨found, -, hok⟩
  · rw [hwhy, hwhy]
    rfl
  · rw [hok, hok]
    refine env.addMissing_addMissing fun e he => ?_
    exact (order.arrange_perm found).mem_iff.mpr ((order'.arrange_perm found).mem_iff.mp he)

theorem loadEnv_again (h : ∀ a, o.access = some a → a.Settles) (order : MapOrder) (path : Text)
    (env : Environment) :
    ((accessOf { s with order := order } o).loadEnv path ((accessOf s o).loadEnv path env).1).1 =
      ((accessOf s o).loadEnv path env).1 := by
  rw [accessOf, accessOf]
  cases ha : o.access with
  | none => exact addAssigned_again s.files path s.order order env
  | some a => exact h a ha path env

/-- The surroundings of a load that comes after another one. -/
def Surroundings.after (s : Surroundings) (env : Environment) (m : Log.Ambient) (order : MapOrder) :
    Surroundings :=
  { s with environment := env, ambient := m, order := order }

theorem variablesOf_again (h : ∀ a, o.access = some a → a.Settles) {env : Environment}
    (henv : env = variablesOf s service o) (m : Log.Ambient) (order : MapOrder) :
    variablesOf (s.after env m order) service o = env := by
  have hexist : (accessOf (s.after env m order) o).exist = (accessOf s o).exist :=
    exist_accessOf s o order
  rw [variablesOf] at henv ⊢
  simp only [resolve_congr hexist, isThere_congr hexist]
  split
  · rename_i hthere
    rw [if_pos hthere] at henv
    rw [henv]
    exact loadEnv_again h order _ s.environment
  · rfl

/-! ### Settings that fit -/

/-- What settings change in a configuration. -/
structure Amendment where
  name : Option Text
  environment : Option Text
  debug : Option Bool
  level : Option Text
  format : Option Text
  output : Option Text
  noColor : Option Bool
  timestamp : Option Bool
  caller : Option Bool
  label : Option Text
  trim : Option Bool
  lowercase : Option Bool

namespace Amendment

def logging (a : Amendment) (c : Log.Config) : Log.Config where
  level := a.level.getD c.level
  format := a.format.getD c.format
  output := a.output.getD c.output
  noColor := a.noColor.getD c.noColor
  timestamp := a.timestamp.getD c.timestamp
  caller := a.caller.getD c.caller
  label := a.label.or c.label

def formatting (a : Amendment) (c : FormatOptions) : FormatOptions where
  trim := a.trim.getD c.trim
  lowercase := a.lowercase.getD c.lowercase

def amend (a : Amendment) (c : ServiceConfig) : ServiceConfig where
  name := a.name.getD c.name
  environment := a.environment.getD c.environment
  debug := a.debug.getD c.debug
  logging := a.logging c.logging
  format := a.formatting c.format

end Amendment

theorem settle_eq {α : Type} (now : α) (o : Option α) : settle now (.ok o) = (o.getD now, []) := by
  cases o <;> rfl

theorem exists_settle_text {key name : String} {now x : Text} {t : Tree}
    (h : settle now (decodeText key name t) = (x, [])) :
    ∃ o : Option Text, ∀ now, settle now (decodeText key name t) = (o.getD now, []) := by
  obtain ⟨o, ho, -⟩ := settle_ok h
  exact ⟨o, fun now => by rw [ho, settle_eq]⟩

/-- Only the message of a flag that does not fit tells the value that it has. -/
theorem exists_settle_flag {key name : String} {now was x : Bool} {t : Tree}
    (h : settle now (decodeFlag key name was t) = (x, [])) :
    ∃ o : Option Bool, ∀ now was, settle now (decodeFlag key name was t) = (o.getD now, []) := by
  obtain ⟨o, ho, -⟩ := settle_ok h
  refine ⟨o, fun now was' => ?_⟩
  have hsame : decodeFlag key name was' t = .ok o := by
    unfold decodeFlag at ho ⊢
    cases hv : Tree.given? (fieldSetting? (utf8 name) t) with
    | none =>
        rw [hv] at ho
        exact ho
    | some v =>
        rw [hv] at ho
        cases v with
        | bool _ | int _ | float _ | string _ => exact ho
        | _ => cases ho
  rw [hsame, settle_eq]

theorem exists_settle_label {key name : String} {now x : Option Text} {t : Tree}
    (h : (match decodeText key name t with
      | .ok (some s) => (some s, [])
      | .ok none => (now, [])
      | .error m => (now, [m])) = (x, ([] : List Mismatch))) :
    ∃ o : Option Text, decodeText key name t = .ok o := by
  cases hr : decodeText key name t with
  | ok o => exact ⟨o, rfl⟩
  | error m =>
      rw [hr] at h
      cases h

theorem exists_decodeLogging {c c' : Log.Config} {t : Tree} (h : decodeLogging c t = (c', [])) :
    ∃ a : Amendment, ∀ c, decodeLogging c t = (a.logging c, []) := by
  obtain ⟨hlevel, hformat, houtput, hnoColor, htimestamp, hcaller, hlabel⟩ := decodeLogging_ok h
  obtain ⟨level, hlevel⟩ := exists_settle_text hlevel
  obtain ⟨format, hformat⟩ := exists_settle_text hformat
  obtain ⟨output, houtput⟩ := exists_settle_text houtput
  obtain ⟨noColor, hnoColor⟩ := exists_settle_flag hnoColor
  obtain ⟨timestamp, htimestamp⟩ := exists_settle_flag htimestamp
  obtain ⟨caller, hcaller⟩ := exists_settle_flag hcaller
  obtain ⟨label, hlabel⟩ := exists_settle_label hlabel
  refine ⟨⟨none, none, none, level, format, output, noColor, timestamp, caller, label, none, none⟩, ?_⟩
  intro c
  rw [decodeLogging, hlevel, hformat, houtput, hnoColor, htimestamp, hcaller, hlabel]
  cases label <;> rfl

theorem exists_decodeFormat {c c' : FormatOptions} {t : Tree} (h : decodeFormat c t = (c', [])) :
    ∃ a : Amendment, ∀ c, decodeFormat c t = (a.formatting c, []) := by
  obtain ⟨htrim, hlowercase⟩ := decodeFormat_ok h
  obtain ⟨trim, htrim⟩ := exists_settle_flag htrim
  obtain ⟨lowercase, hlowercase⟩ := exists_settle_flag hlowercase
  refine ⟨⟨none, none, none, none, none, none, none, none, none, none, trim, lowercase⟩, ?_⟩
  intro c
  rw [decodeFormat, htrim, hlowercase]
  rfl

theorem settleGroup_inj {α : Type} {decode : α → Tree → α × List Mismatch} {now x : α}
    {r : Except Mismatch Tree} (h : settleGroup now decode r = (x, [])) :
    ∃ t, r = .ok t ∧ decode now t = (x, []) := by
  cases r with
  | ok t => exact ⟨t, rfl, h⟩
  | error m => cases h

/-- Settings that fit amend every configuration in the same way. -/
theorem exists_decodeService {c c' : ServiceConfig} {t : Tree} (h : decodeService c t = (c', [])) :
    ∃ a : Amendment, ∀ c, decodeService c t = (a.amend c, []) := by
  obtain ⟨hname, henvironment, hdebug, hlogging, hformat⟩ := decodeService_ok h
  obtain ⟨name, hname⟩ := exists_settle_text hname
  obtain ⟨environment, henvironment⟩ := exists_settle_text henvironment
  obtain ⟨debug, hdebug⟩ := exists_settle_flag hdebug
  obtain ⟨tl, htl, hlogging⟩ := settleGroup_inj hlogging
  obtain ⟨tf, htf, hformat⟩ := settleGroup_inj hformat
  obtain ⟨l, hlogging⟩ := exists_decodeLogging hlogging
  obtain ⟨f, hformat⟩ := exists_decodeFormat hformat
  refine ⟨{ l with name, environment, debug, trim := f.trim, lowercase := f.lowercase }, ?_⟩
  intro c
  rw [decodeService, hname, henvironment, hdebug, htl, htf, settleGroup, settleGroup, hlogging, hformat]
  rfl

/-! ### Defaults -/

theorem filled_again (given : Option Text) (now fallback : Text) :
    (if given.getD (if given.getD now = [] then fallback else given.getD now) = [] then fallback
      else given.getD (if given.getD now = [] then fallback else given.getD now)) =
    if given.getD now = [] then fallback else given.getD now := by
  cases given with
  | some s => rfl
  | none =>
      simp only [Option.getD_none]
      by_cases hnow : now = []
      · rw [if_pos hnow, ite_self]
      · rw [if_neg hnow, if_neg hnow]

theorem getD_again {α : Type} (given : Option α) (now : α) :
    given.getD (given.getD now) = given.getD now := by
  cases given <;> rfl

/-- Amending and completing what was amended and completed alike changes nothing. -/
theorem complete_amend_again (service : Text) (a : Amendment) (c : ServiceConfig) :
    complete service (a.amend (complete service (a.amend c))) = complete service (a.amend c) := by
  have hlabel : a.label.or (a.label.or c.logging.label) = a.label.or c.logging.label := by
    cases a.label <;> rfl
  simp only [complete_eq, Amendment.amend, Amendment.logging, Amendment.formatting, filled_again,
    getD_again, hlabel]

/-! ### The second load -/

/-- The environment is as the variables leave it, whether the file is read or not. -/
theorem load_environment_again (haccess : ∀ a, o.access = some a → a.Settles) {env : Environment}
    (henv : env = variablesOf s service o) (m : Log.Ambient) (order : MapOrder) (c : ServiceConfig) :
    (load (s.after env m order) service o c).environment = env := by
  rw [load_environment, loadConfig_environment]
  cases hfile : fileOf (s.after env m order) service o with
  | error mistake => exact gather_environment_of_mistake hfile
  | ok file => exact (gather_environment hfile).trans (variablesOf_again haccess henv m order)

theorem fileOf_again {file : Tree} (hfile : fileOf s service o = .ok file)
    (hsteady : SettingsFile.IsSteady (settingsOf s service o)) {env : Environment}
    (hreferences : ∀ n ∈ referencesOf s service o,
      Environment.find? n s.environment = Environment.find? n env) (m : Log.Ambient) (order : MapOrder) :
    fileOf (s.after env m order) service o = .ok file := by
  have hordered := fileOf_reordered hfile order
  rw [hsteady.lowered_congr order s.order, ← fileOf_eq hfile] at hordered
  have hreferences' : ∀ n ∈ referencesOf { s with order := order } service o,
      Environment.find? n s.environment = Environment.find? n env := by
    intro n hn
    refine hreferences n ?_
    unfold referencesOf at hn ⊢
    rwa [configFileOf_reordered, isThere_congr (exist_accessOf s o order)] at hn
  exact (fileOf_congr hreferences').symm.trans hordered

/-- A steady file below variables that stay away from it may be merged in any order. -/
theorem regular_layersOf {file : Tree} (hfile : fileOf s service o = .ok file)
    (hsteady : SettingsFile.IsSteady (settingsOf s service o))
    (haside : ∀ e ∈ variablesOf s service o, Layers.StaysAside o.envLead file e) :
    (layersOf s service o).Regular := by
  rw [layersOf, hfile]
  refine Layers.regular_bind ?_ ?_ ?_ haside
  · rw [fileOf_eq hfile]
    exact SettingsFile.sortedTree_lowered _
  · rw [fileOf_eq hfile]
    refine SettingsFile.everyEntry_lowered (fun k hk => ?_) hsteady.parts
    refine Tree.isStep_iff.mpr ⟨Text.lower_lower k, not_mem_lower ?_⟩
    simpa [Tree.isPart] using hk
  · rw [fileOf_eq hfile]
    exact hsteady.find?_nil s.order

/-- A load that has the layers of one that went well, from what that one left, changes nothing. -/
theorem load_of_layers {s' : Surroundings} {c : ServiceConfig} {file : Tree}
    (h : (load s service o c).error = none) (hfile : fileOf s' service o = .ok file)
    (hlayers : layersOf s' service o = layersOf s service o) :
    (load s' service o (load s service o c).value).error = none ∧
      (load s' service o (load s service o c).value).value = (load s service o c).value := by
  obtain ⟨-, _, t, d, -, hmerged, hdecoded, hvalue, hproblem⟩ := load_ok h
  have hgather := gather_value s' service o
  rw [hfile, hlayers, hmerged] at hgather
  -- it amends what it finds as the first one did
  obtain ⟨a, ha⟩ := exists_decodeService hdecoded
  have hd : d = a.amend c := congrArg Prod.fst (hdecoded.symm.trans (ha c))
  rw [← hvalue] at hproblem
  have hsame : complete service (a.amend (load s service o c).value) = (load s service o c).value := by
    rw [hvalue, hd]
    exact complete_amend_again service a c
  generalize (load s service o c).value = first at hsame hproblem
  have hout := load_outcome s' service o first
  rw [hgather] at hout
  change ((load s' service o first).value, (load s' service o first).error) =
    completed service ((decodeService first t).1,
      if (decodeService first t).2.isEmpty then none else _) at hout
  rw [ha] at hout
  obtain ⟨hagain, herror⟩ := Prod.mk.inj hout
  refine ⟨?_, hagain.trans hsame⟩
  rw [herror, hsame, hproblem]
  rfl

/-- A load that went well leaves an environment that the next load leaves as it is, in whatever order it
goes through its maps. If the file's keys are no two of them the same without regard to case and have no
points, and no variable with an empty part at the start of a key leads into the file, the configuration
stays as it is too, unless the settings file refers to a variable that the first load has set. The layers
are the same then, and come to the same however their keys are listed. -/
theorem load_again (s : Surroundings) (service : Text) (o : LoadOptions) (c : ServiceConfig)
    (m : Log.Ambient) (order : MapOrder) (haccess : ∀ a, o.access = some a → a.Settles)
    (h : (load s service o c).error = none) :
    let first := load s service o c
    let again := load (s.after first.environment m order) service o first.value
    again.environment = first.environment ∧
      (SettingsFile.IsSteady (settingsOf s service o) →
        (∀ e ∈ first.environment, Layers.StaysAside o.envLead (layersOf s service o).file e) →
        (∀ n ∈ referencesOf s service o,
          Environment.find? n s.environment = Environment.find? n first.environment) →
        again.error = none ∧ again.value = first.value ∧
          layersOf (s.after first.environment m order) service o = layersOf s service o ∧
          ∀ keys, (layersOf s service o).Lists keys →
            (layersOf s service o).mergeKeys keys [] = (layersOf s service o).merged) := by
  intro first again
  obtain ⟨henvironment, file, -, -, hfile, -⟩ := load_ok h
  refine ⟨load_environment_again haccess henvironment m order first.value, ?_⟩
  intro hsteady haside hreferences
  have hfile' : fileOf (s.after first.environment m order) service o = .ok file :=
    fileOf_again hfile hsteady hreferences m order
  have hvariables : variablesOf (s.after first.environment m order) service o = variablesOf s service o :=
    (variablesOf_again haccess henvironment m order).trans henvironment
  have hlayers : layersOf (s.after first.environment m order) service o = layersOf s service o := by
    rw [layersOf, layersOf, hvariables, hfile', hfile]
  obtain ⟨herror, hvalue⟩ := load_of_layers h hfile' hlayers
  refine ⟨herror, hvalue, hlayers, fun keys hkeys => ?_⟩
  have hlayer : (layersOf s service o).file = file := by
    rw [file_layersOf, hfile]
    rfl
  rw [hlayer, henvironment] at haside
  exact (regular_layersOf hfile hsteady haside).mergeKeys_eq hkeys

/-- A settings file that takes a name from a variable and a file of variables that assigns it. -/
def hostedSurroundings (env : Environment) : Surroundings :=
  Surroundings.ofLists [(utf8 "s.env", utf8 "name=$HOST\n"),
    (utf8 ".env", utf8 "HOST=b\nDEBUG=true\nLOGGING_LEVEL=\n")] env

def hostedOptions : LoadOptions := { configFile := utf8 "s.env" }

def hostedLoad (env : Environment) (c : ServiceConfig) : Loaded ServiceConfig :=
  load (hostedSurroundings env) (utf8 "svc") hostedOptions c

def hostedConfig (name : Text) : ServiceConfig where
  name := name
  environment := utf8 "development"
  debug := true
  logging := { level := utf8 "debug", format := utf8 "console", output := utf8 "stderr" }

/-- From the last name to the first. -/
def backwards : MapOrder := fun k l => Text.lt l k

/-- Where the variable was set before, a second load changes nothing, a day later and in another order. -/
theorem load_again_hosted :
    let before := [(utf8 "_", utf8 "/bin/svc"), (utf8 "HOST", utf8 "a")]
    let env := before ++ [(utf8 "DEBUG", utf8 "true"), (utf8 "LOGGING_LEVEL", [])]
    let later : Log.Ambient := { now := ⟨2024, 1, 3, 3, 4, 5, 0, .utc⟩, caller := [] }
    let again := load ((hostedSurroundings before).after env later backwards) (utf8 "svc") hostedOptions
      (hostedConfig (utf8 "a"))
    (hostedLoad before {}).environment = env ∧
      (hostedLoad before {}).value = hostedConfig (utf8 "a") ∧
      again.error = none ∧ again.value = hostedConfig (utf8 "a") ∧ again.environment = env := by
  intro before env later again
  have hfirst : (hostedLoad before {}).environment = env := by decide +kernel
  have hvalue : (hostedLoad before {}).value = hostedConfig (utf8 "a") := by decide +kernel
  have hagain := load_again (hostedSurroundings before) (utf8 "svc") hostedOptions {} later backwards
    (fun a h => by cases h) (by decide +kernel)
  rw [hostedLoad] at hfirst hvalue
  simp only [hfirst, hvalue] at hagain
  obtain ⟨henvironment, hsame⟩ := hagain
  obtain ⟨herror, hconfig, -⟩ := hsame (by decide +kernel) (by decide +kernel) (by decide +kernel)
  exact ⟨hfirst, hvalue, herror, hconfig, henvironment⟩

/-- What a second load finds where only the first one has set the variable. -/
def assignedHost : Environment :=
  [(utf8 "DEBUG", utf8 "true"), (utf8 "HOST", utf8 "b"), (utf8 "LOGGING_LEVEL", [])]

/-- A load through an access that adds a letter to a variable each time. -/
def lengtheningLoad (env : Environment) (c : ServiceConfig) : Loaded ServiceConfig :=
  load { namedSurroundings with environment := env } (utf8 "svc")
    (fixedOptions (fun env => env.set (utf8 "NAME") ((env.find? (utf8 "NAME")).getD [] ++ utf8 "x")) none)
    c

/-- A file with two spellings of a key. -/
def spelledLoad (order : MapOrder) (c : ServiceConfig) : Loaded ServiceConfig :=
  let files := [(utf8 "config.yml", utf8 "format: \x7bTRIM: true, Trim: false\x7d\n")]
  load { Surroundings.ofLists files [] with order := order } (utf8 "svc") {} c

/-- A file with a key that leads through another one. -/
def tangledSurroundings : Surroundings :=
  Surroundings.ofLists [(utf8 "config.yml", utf8 "logging: x\nlogging.level: warn\n")] []

def tangledLayers : Layers := layersOf tangledSurroundings (utf8 "svc") {}

/-- Where the first load sets the variable, the second one finds it in the settings file. An access that
changes the environment each time changes it once more. Two spellings of a key come to the one that is
gone through last. And where a key leads through another one, the settings do not fit any more if the
keys are merged the other way round. -/
theorem load_again_changes :
    ((hostedLoad [] {}).error = none ∧ (hostedLoad [] {}).environment = assignedHost ∧
      (hostedLoad [] {}).value = hostedConfig (utf8 "svc") ∧
      (hostedLoad assignedHost (hostedConfig (utf8 "svc"))).error = none ∧
      (hostedLoad assignedHost (hostedConfig (utf8 "svc"))).value = hostedConfig (utf8 "b")) ∧
    ((lengtheningLoad [] {}).error = none ∧
      (lengtheningLoad [] {}).environment = [(utf8 "NAME", utf8 "x")] ∧
      (lengtheningLoad [(utf8 "NAME", utf8 "x")] (lengtheningLoad [] {}).value).environment =
        [(utf8 "NAME", utf8 "xx")]) ∧
    ((spelledLoad Text.lt {}).error = none ∧ (spelledLoad Text.lt {}).value.format.trim = false ∧
      (spelledLoad backwards (spelledLoad Text.lt {}).value).value.format.trim = true) ∧
    (load tangledSurroundings (utf8 "svc") {} {}).error = none ∧
      (tangledLayers.mergeKeys tangledLayers.keys.reverse []).toOption.map
        (fun t => (decodeService {} t).2.isEmpty) = some false := by
  decide +kernel

end Config

end ServiceKit
