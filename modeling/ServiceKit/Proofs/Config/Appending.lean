import Mathlib
import ServiceKit.Proofs.Config.Loading

/-!
The environment after a load. It is as the access to the files leaves it, and the files themselves only
add to it: what the file of variables assigns and was not set. If the settings file is not read or the
file of variables cannot be loaded, nothing is added.
-/

namespace ServiceKit

/-- What was set has kept its value, and what is new is one of some assignments. -/
structure Environment.Extends (before after : Environment)
    (assigned : Except Text (List (Text × Text))) : Prop where
  kept : ∀ name value, find? name before = some value → find? name after = some value
  added : ∀ name value, find? name before = none → find? name after = some value →
    ∃ entries, assigned = .ok entries ∧ (name, value) ∈ entries

namespace Environment

theorem extends_refl (env : Environment) (assigned : Except Text (List (Text × Text))) :
    env.Extends env assigned := by
  constructor
  · intro name value h
    exact h
  · intro name value hnone hsome
    cases hnone.symm.trans hsome

theorem extends_addMissing (env : Environment) (entries : List (Text × Text)) :
    env.Extends (env.addMissing entries) (.ok entries) := by
  constructor
  · intro name value h
    exact find?_addMissing h entries
  · intro name value hnone hsome
    exact ⟨entries, rfl, mem_of_find?_addMissing hnone hsome⟩

theorem extends_addAssigned (env : Environment) (assigned : Except Text (List (Text × Text))) :
    env.Extends (env.addAssigned assigned).1 assigned := by
  cases assigned with
  | error why => exact env.extends_refl _
  | ok entries => exact env.extends_addMissing entries

end Environment

namespace Config

variable {s : Surroundings} {service : Text} {o : LoadOptions}

/-- The file of variables of a load. -/
def envFileOf (s : Surroundings) (service : Text) (o : LoadOptions) : Text :=
  (resolve (accessOf s o) o service).envFile

/-- What a load's access comes to for the file of variables. -/
def attemptOf (s : Surroundings) (service : Text) (o : LoadOptions) : Environment × Option Text :=
  (accessOf s o).loadEnv (envFileOf s service o) s.environment

/-- What the file of variables of a load assigns, if it is the files themselves that are looked at. -/
def assignedOf (s : Surroundings) (service : Text) (o : LoadOptions) :
    Except Text (List (Text × Text)) :=
  s.files.assigned s.order (envFileOf s service o)

theorem attemptOf_eq (h : o.access = none) :
    attemptOf s service o = s.environment.addAssigned (assignedOf s service o) := by
  rw [attemptOf, accessOf, h]
  rfl

theorem variablesOf_of_there (h : (isThere (accessOf s o) (envFileOf s service o)).1 = true) :
    variablesOf s service o = (attemptOf s service o).1 :=
  if_pos h

theorem variablesOf_of_not_there (h : (isThere (accessOf s o) (envFileOf s service o)).1 = false) :
    variablesOf s service o = s.environment := by
  rw [envFileOf] at h
  rw [variablesOf, h]
  rfl

/-- The variables are those that were there or those that the access leaves. -/
theorem variablesOf_cases (s : Surroundings) (service : Text) (o : LoadOptions) :
    variablesOf s service o = s.environment ∨ variablesOf s service o = (attemptOf s service o).1 := by
  cases hthere : (isThere (accessOf s o) (envFileOf s service o)).1 with
  | true => exact .inr (variablesOf_of_there hthere)
  | false => exact .inl (variablesOf_of_not_there hthere)

theorem gather_environment_cases (s : Surroundings) (service : Text) (o : LoadOptions) :
    (gather s service o).environment = s.environment ∨
    (gather s service o).environment = (attemptOf s service o).1 := by
  cases hfile : fileOf s service o with
  | error mistake => exact .inl (gather_environment_of_mistake hfile)
  | ok file =>
      rw [gather_environment hfile]
      exact variablesOf_cases s service o

theorem extends_gather {assigned : Except Text (List (Text × Text))}
    (h : s.environment.Extends (attemptOf s service o).1 assigned) :
    s.environment.Extends (gather s service o).environment assigned := by
  rcases gather_environment_cases s service o with hsame | hloaded
  · rw [hsame]
    exact s.environment.extends_refl assigned
  · rw [hloaded]
    exact h

/-- An access that leaves the variables as they were leaves the settings as they are without it. -/
theorem gather_value_of_untouched (h : (attemptOf s service o).1 = s.environment) :
    (gather s service o).value = (gatherAlone s service o).value := by
  have hvariables : variablesOf s service o = s.environment := by
    rcases variablesOf_cases s service o with hsame | hloaded
    · exact hsame
    · exact hloaded.trans h
  rw [gather_value, gatherAlone_value, layersOf, hvariables]
  cases fileOf s service o <;> rfl

/-- What a load comes to for its caller. -/
def Loaded.result {α : Type} (l : Loaded α) : α × Option LoadError := (l.value, l.error)

theorem gatherFrom_error {found : Resolved} {t : Tree} (h : (gatherFrom s o found).value = .ok t) :
    (gatherFrom s o found).error = none := by
  unfold gatherFrom at h ⊢
  simp only at h ⊢
  split at h
  · cases h
  · rfl

theorem result_settingsFrom {found found' : Resolved}
    (h : (gatherFrom s o found).value = (gatherFrom s o found').value) :
    (settingsFrom (gatherFrom s o found)).result = (settingsFrom (gatherFrom s o found')).result := by
  unfold settingsFrom
  cases hvalue : (gatherFrom s o found').value with
  | error e =>
      rw [h, hvalue]
      rfl
  | ok t =>
      have herror := gatherFrom_error (h.trans hvalue)
      rw [h, hvalue]
      exact congrArg (Prod.mk t) (herror.trans (gatherFrom_error hvalue).symm)

theorem result_decodeInto (service : Text) (c : ServiceConfig) {g g' : Loaded (Except LoadError Tree)}
    (hvalue : g.value = g'.value) :
    (decodeInto service c g).result = (decodeInto service c g').result := by
  rw [Loaded.result, Loaded.result, decodeInto_outcome, decodeInto_outcome, hvalue]

theorem result_finish (service : Text) {l l' : Loaded ServiceConfig} (h : l.result = l'.result) :
    (finish service l).result = (finish service l').result :=
  (finish_outcome service l).trans
    ((congrArg (completed service) h).trans (finish_outcome service l').symm)

/-- The environments after each of the ways to load. -/
def environmentsAfter (s : Surroundings) (service : Text) (o : LoadOptions) (c : ServiceConfig) :
    List Environment :=
  [(loadSettings s service o).environment, (loadConfig s service o c).environment,
    (load s service o c).environment]

theorem eq_of_mem_environmentsAfter {c : ServiceConfig} {env : Environment}
    (h : env ∈ environmentsAfter s service o c) : env = (gather s service o).environment := by
  simpa [environmentsAfter, loadSettings_environment, loadConfig_environment, load_environment] using h

/-- A load treats the environment as something to append to, whether it ends well or not. Nothing is new
if the settings file is not read, and else the environment is as the access leaves it, so a load appends
if its access does. The files themselves do: what was set keeps its value, what is new is assigned by the
file of variables, all that is assigned and was not set is new, and nothing is new if the file cannot be
loaded. An access that leaves the environment alone leaves the results as they are without it. -/
theorem load_appends (s : Surroundings) (service : Text) (o : LoadOptions) (c : ServiceConfig) :
    (∀ env ∈ environmentsAfter s service o c,
      (∀ mistake, fileOf s service o = .error mistake → env = s.environment) ∧
      (∀ file, fileOf s service o = .ok file →
        env = if (isThere (accessOf s o) (envFileOf s service o)).1 then (attemptOf s service o).1
          else s.environment) ∧
      (∀ assigned, s.environment.Extends (attemptOf s service o).1 assigned →
        s.environment.Extends env assigned) ∧
      (o.access = none → s.environment.Extends env (assignedOf s service o))) ∧
    (o.access = none →
      (∀ entries, assignedOf s service o = .ok entries →
        attemptOf s service o = (s.environment.addMissing entries, none)) ∧
      ∀ why, assignedOf s service o = .error why →
        attemptOf s service o = (s.environment, some why) ∧
          ∀ env ∈ environmentsAfter s service o c, env = s.environment) ∧
    ((attemptOf s service o).1 = s.environment →
      (loadSettings s service o).result = (settingsFrom (gatherAlone s service o)).result ∧
      (loadConfig s service o c).result = (decodeInto service c (gatherAlone s service o)).result ∧
      (load s service o c).result =
        (finish service (decodeInto service c (gatherAlone s service o))).result) := by
  refine ⟨fun env henv => ?_, fun hnone => ⟨fun entries hentries => ?_, fun why hwhy => ?_⟩,
    fun huntouched => ?_⟩
  · rw [eq_of_mem_environmentsAfter henv]
    refine ⟨?_, ?_, ?_, ?_⟩
    · intro mistake hfile
      exact gather_environment_of_mistake hfile
    · intro file hfile
      exact gather_environment hfile
    · intro assigned h
      exact extends_gather h
    · intro hnone
      refine extends_gather ?_
      rw [attemptOf_eq hnone]
      exact s.environment.extends_addAssigned _
  · rw [attemptOf_eq hnone, hentries]
    rfl
  · have hattempt : attemptOf s service o = (s.environment, some why) := by
      rw [attemptOf_eq hnone, hwhy]
      rfl
    refine ⟨hattempt, fun env henv => ?_⟩
    rw [eq_of_mem_environmentsAfter henv]
    rcases gather_environment_cases s service o with hsame | hloaded
    · exact hsame
    · rw [hloaded, hattempt]
  · have hvalue := gather_value_of_untouched huntouched
    have hdecoded := result_decodeInto service c hvalue
    exact ⟨result_settingsFrom hvalue, hdecoded, result_finish service hdecoded⟩

/-- An environment with an empty variable, beside a file that assigns it, and another one twice. -/
def crowdedSurroundings : Surroundings :=
  Surroundings.ofLists [(utf8 ".env", utf8 "B=1\nC=\"$B $NAME\"\nNAME=x\nB=2 # two\n")]
    [(utf8 "NAME", [])]

/-- A file that cannot be loaded because of its last line. -/
def brokenSurroundings : Surroundings :=
  Surroundings.ofLists [(utf8 ".env", utf8 "DEBUG=maybe\nC='1")] [(utf8 "NAME", [])]

/-- An access that finds every path and does the same for each. -/
def fixedAccess (change : Environment → Environment) (why : Option Text) : Access where
  exist _ := true
  loadEnv _ env := (change env, why)

/-- Options with such an access, and a file of variables, so that no other path is looked at. -/
def fixedOptions (change : Environment → Environment) (why : Option Text) : LoadOptions where
  configFile := utf8 "c.yml"
  envFile := utf8 "v.env"
  access := some (fixedAccess change why)

def namedSurroundings : Surroundings :=
  Surroundings.ofLists [(utf8 "c.yml", utf8 "debug: true\n"), (utf8 ".env", utf8 "A=1\n")]
    [(utf8 "NAME", utf8 "x")]

theorem load_appends_crowded :
    (load crowdedSurroundings (utf8 "svc") {} {}).environment =
      [(utf8 "NAME", []), (utf8 "B", utf8 "2"), (utf8 "C", utf8 "1 ")] ∧
    (load brokenSurroundings (utf8 "svc") {} {}).environment = [(utf8 "NAME", [])] ∧
    (load brokenSurroundings (utf8 "svc") {} {}).error = none ∧
    namedSurroundings.environment.Extends (load namedSurroundings (utf8 "svc")
      (fixedOptions (fun env => env ++ [(utf8 "LEVEL", utf8 "warn")]) none) {}).environment
      (.ok [(utf8 "LEVEL", utf8 "warn")]) := by
  obtain ⟨hcrowded, hfiles, -⟩ := load_appends crowdedSurroundings (utf8 "svc") {} {}
  obtain ⟨-, hbroken, halone⟩ := load_appends brokenSurroundings (utf8 "svc") {} {}
  obtain ⟨hnamed, -⟩ := load_appends namedSurroundings (utf8 "svc")
    (fixedOptions (fun env => env ++ [(utf8 "LEVEL", utf8 "warn")]) none) {}
  obtain ⟨hattempt, hsame⟩ := (hbroken rfl).2 (utf8 "unterminated quoted value '1") rfl
  refine ⟨?_, hsame _ (by simp [environmentsAfter]), ?_, ?_⟩
  · have hnew := (hcrowded (load crowdedSurroundings (utf8 "svc") {} {}).environment
      (by simp [environmentsAfter])).2.1 [] rfl
    have hentries := (hfiles rfl).1
      [(utf8 "B", utf8 "2"), (utf8 "C", utf8 "1 "), (utf8 "NAME", utf8 "x")] rfl
    rw [hentries] at hnew
    exact hnew.trans (by decide +kernel)
  · obtain ⟨-, -, hresult⟩ := halone (congrArg Prod.fst hattempt)
    exact (congrArg Prod.snd hresult).trans (by decide +kernel)
  · exact (hnamed _ (by simp [environmentsAfter])).2.2.1 _
      (Environment.extends_addMissing [(utf8 "NAME", utf8 "x")] [(utf8 "LEVEL", utf8 "warn")])

/-- An access may write over a variable, or change one and then fail. And a settings file that is named
but not there is passed over: the file of variables is loaded all the same. -/
theorem load_overwrites :
    (load namedSurroundings (utf8 "svc")
        (fixedOptions (Environment.set (utf8 "NAME") (utf8 "y")) none) {}).environment =
      [(utf8 "NAME", utf8 "y")] ∧
    (load namedSurroundings (utf8 "svc")
        (fixedOptions (fun _ => []) (some (utf8 "failed"))) {}).environment = [] ∧
    (load namedSurroundings (utf8 "svc") { configFile := utf8 "nope.yml" } {}).error = none ∧
    (load namedSurroundings (utf8 "svc") { configFile := utf8 "nope.yml" } {}).environment =
      [(utf8 "NAME", utf8 "x"), (utf8 "A", utf8 "1")] := by
  decide +kernel

end Config

end ServiceKit
