import Mathlib
import ServiceKit.Proofs.Config.Binding
import ServiceKit.Proofs.Environment

/-!
The parts of a load: the settings that its file is read as, the variables that it sees, and what comes
of them.
-/

namespace ServiceKit.Config

open SettingsFile

/-- Surroundings with some files and variables, at a fixed time. -/
def Surroundings.ofLists (files : List (Text × Text)) (env : Environment) : Surroundings where
  files := Files.ofList (files.map fun f => (f.1, .file f.2))
  environment := env
  logger := Log.Logger.fallback []
  ambient := { now := ⟨2024, 1, 2, 3, 4, 5, 0, .utc⟩, caller := [] }

/-- How a load sees files. -/
def accessOf (s : Surroundings) (o : LoadOptions) : Access := o.access.getD s.access

def configFileOf (s : Surroundings) (service : Text) (o : LoadOptions) : Text :=
  (resolve (accessOf s o) o service).configFile

/-- The settings of a load's file, or why they are not known. Without a file there are none. -/
def fileOf (s : Surroundings) (service : Text) (o : LoadOptions) : Except SettingsFile.Mistake Tree :=
  if (isThere (accessOf s o) (configFileOf s service o)).1 then
    SettingsFile.read s.order s.toml s.environment (configFileOf s service o)
      (s.files.content (configFileOf s service o))
  else .ok []

/-- The settings of a load's file as the file has them. -/
def settingsOf (s : Surroundings) (service : Text) (o : LoadOptions) : Tree :=
  let path := configFileOf s service o
  if (isThere (accessOf s o) path).1 then
    match SettingsFile.forms.find? fun f => f.1 == ending path, s.files.content path with
    | some (_, form), .ok text => (parse s.toml s.environment form text).toOption.getD []
    | _, _ => []
  else []

/-! ### Other orders -/

theorem firstExisting_congr {a a' : Access} (h : a.exist = a'.exist) (paths : List Text) :
    firstExisting a paths = firstExisting a' paths := by
  induction paths with
  | nil => rfl
  | cons path paths ih => rw [firstExisting, firstExisting, h, ih]

theorem resolve_congr {a a' : Access} (h : a.exist = a'.exist) (o : LoadOptions) (service : Text) :
    resolve a o service = resolve a' o service := by
  unfold resolve
  simp only [firstExisting_congr h]

theorem isThere_congr {a a' : Access} (h : a.exist = a'.exist) (path : Text) :
    isThere a path = isThere a' path := by
  rw [isThere, isThere, h]

theorem exist_accessOf (s : Surroundings) (o : LoadOptions) (order : MapOrder) :
    (accessOf { s with order := order } o).exist = (accessOf s o).exist := by
  rw [accessOf, accessOf]
  cases o.access <;> rfl

theorem configFileOf_reordered (s : Surroundings) (service : Text) (o : LoadOptions) (order : MapOrder) :
    configFileOf { s with order := order } service o = configFileOf s service o :=
  congrArg Resolved.configFile (resolve_congr (exist_accessOf s o order) o service)

/-- A file that is read in one order is read in every order. -/
theorem fileOf_reordered {s : Surroundings} {service : Text} {o : LoadOptions} {file : Tree}
    (h : fileOf s service o = .ok file) (order : MapOrder) :
    fileOf { s with order := order } service o =
      .ok (lowerEntries order (lowerValues order (settingsOf s service o))) := by
  unfold fileOf at h ⊢
  unfold settingsOf
  rw [configFileOf_reordered, isThere_congr (exist_accessOf s o order)]
  simp only
  by_cases hthere : (isThere (accessOf s o) (configFileOf s service o)).1 = true
  · rw [if_pos hthere] at h
    rw [if_pos hthere, if_pos hthere]
    unfold SettingsFile.read at h ⊢
    split at h
    · cases h
    · rename_i name form hform
      rw [hform]
      cases hcontent : s.files.content (configFileOf s service o) with
      | error e =>
          rw [hcontent] at h
          cases h
      | ok text =>
          rw [hcontent] at h
          change (parse s.toml s.environment form text >>= _) = .ok file at h
          change (parse s.toml s.environment form text >>= _) = _
          cases hparse : parse s.toml s.environment form text with
          | error e =>
              rw [hparse] at h
              cases h
          | ok entries =>
              simp only [hparse]
              rfl
  · rw [if_neg hthere, if_neg hthere]
    rfl

theorem fileOf_eq {s : Surroundings} {service : Text} {o : LoadOptions} {file : Tree}
    (h : fileOf s service o = .ok file) :
    file = lowerEntries s.order (lowerValues s.order (settingsOf s service o)) :=
  Except.ok.inj (h.symm.trans (fileOf_reordered h s.order))

/-! ### Variables and what comes of them -/

/-- The variables that a load sees once its file of variables is loaded. -/
def variablesOf (s : Surroundings) (service : Text) (o : LoadOptions) : Environment :=
  let path := (resolve (accessOf s o) o service).envFile
  if (isThere (accessOf s o) path).1 then ((accessOf s o).loadEnv path s.environment).1
  else s.environment

/-- What the file of variables adds does not depend on the environment. -/
theorem exists_added {s : Surroundings} {o : LoadOptions} (haccess : (accessOf s o).Adds)
    (service : Text) : ∃ added : List (Text × Text), ∀ env : Environment,
      variablesOf { s with environment := env } service o = env.addMissing added := by
  obtain ⟨r, hr⟩ := haccess (resolve (accessOf s o) o service).envFile
  have hunfold : ∀ env : Environment, variablesOf { s with environment := env } service o =
      if (isThere (accessOf s o) (resolve (accessOf s o) o service).envFile).1 then
        (env.addAssigned r).1
      else env := by
    intro env
    rw [← hr]
    rfl
  by_cases hthere : (isThere (accessOf s o) (resolve (accessOf s o) o service).envFile).1 = true
  · cases r with
    | error e => exact ⟨[], fun env => by rw [hunfold, if_pos hthere, env.addMissing_nil]; rfl⟩
    | ok added => exact ⟨added, fun env => by rw [hunfold, if_pos hthere]; rfl⟩
  · exact ⟨[], fun env => by rw [hunfold, if_neg hthere, env.addMissing_nil]⟩

theorem only_variablesOf {s : Surroundings} (service : Text) {o : LoadOptions}
    (haccess : (accessOf s o).Adds) {keep : Text → Bool} {env env' : Environment}
    (h : env.only keep = env'.only keep) :
    (variablesOf { s with environment := env } service o).only keep =
      (variablesOf { s with environment := env' } service o).only keep := by
  obtain ⟨added, hadded⟩ := exists_added haccess service
  rw [hadded, hadded, Environment.only_addMissing, Environment.only_addMissing, h]

def layersOf (s : Surroundings) (service : Text) (o : LoadOptions) : Layers :=
  ({ file := (fileOf s service o).toOption.getD [] } : Layers).bind o.envLead (variablesOf s service o)

theorem overrides_layersOf (s : Surroundings) (service : Text) (o : LoadOptions) :
    (layersOf s service o).overrides =
      Tree.putTexts ((variablesOf s service o).flatMap (Layers.writes o.envLead)) [] := by
  rw [layersOf, Layers.bind_eq]

theorem file_layersOf (s : Surroundings) (service : Text) (o : LoadOptions) :
    (layersOf s service o).file = (fileOf s service o).toOption.getD [] := by
  rw [layersOf, Layers.bind_eq]

theorem variables_fst (s : Surroundings) (service : Text) (o : LoadOptions) (log : Log.Logger) :
    (if (isThere (accessOf s o) (resolve (accessOf s o) o service).envFile).1 then
      loadVariables (accessOf s o) log s.ambient (resolve (accessOf s o) o service).envFile s.environment
    else (s.environment, [])).1 = variablesOf s service o := by
  rw [variablesOf]
  split <;> rfl

theorem gather_value (s : Surroundings) (service : Text) (o : LoadOptions) :
    (gather s service o).value =
      match fileOf s service o with
      | .error mistake => .error (LoadError.ofMistake (configFileOf s service o) mistake)
      | .ok _ => (layersOf s service o).merged.mapError LoadError.defect := by
  rw [layersOf]
  change (match fileOf s service o with
    | .error mistake => _
    | .ok file => _ : Loaded (Except LoadError Tree)).value = _
  cases fileOf s service o with
  | error mistake => rfl
  | ok file =>
      exact congrArg (fun env => (({ file := file } : Layers).bind o.envLead env).merged.mapError
        LoadError.defect) (variables_fst s service o _)

/-- What a load gathers if no file of variables is found. -/
def gatherAlone (s : Surroundings) (service : Text) (o : LoadOptions) : Loaded (Except LoadError Tree) :=
  gatherFrom s o { resolve (accessOf s o) o service with envFile := [] }

theorem gatherAlone_value (s : Surroundings) (service : Text) (o : LoadOptions) :
    (gatherAlone s service o).value =
      match fileOf s service o with
      | .error mistake => .error (LoadError.ofMistake (configFileOf s service o) mistake)
      | .ok file =>
        (({ file := file } : Layers).bind o.envLead s.environment).merged.mapError LoadError.defect := by
  change (match fileOf s service o with
    | .error mistake => _
    | .ok file => _ : Loaded (Except LoadError Tree)).value = _
  cases fileOf s service o <;> rfl

theorem gather_environment {s : Surroundings} {service : Text} {o : LoadOptions} {file : Tree}
    (h : fileOf s service o = .ok file) :
    (gather s service o).environment = variablesOf s service o := by
  change (match fileOf s service o with
    | .error mistake => _
    | .ok file => _ : Loaded (Except LoadError Tree)).environment = _
  rw [h]
  exact variables_fst s service o _

/-- A settings file that is not read ends a load before variables are looked at. -/
theorem gather_environment_of_mistake {s : Surroundings} {service : Text} {o : LoadOptions}
    {mistake : SettingsFile.Mistake} (h : fileOf s service o = .error mistake) :
    (gather s service o).environment = s.environment := by
  change (match fileOf s service o with
    | .error mistake => _
    | .ok file => _ : Loaded (Except LoadError Tree)).environment = _
  rw [h]

/-- What a load comes to: the configuration and the error. -/
def outcome (service : Text) (c : ServiceConfig) :
    Except LoadError Tree → ServiceConfig × Option LoadError
  | .error e => (c, some e)
  | .ok t =>
    let (c, mismatches) := decodeService c t
    (c, if mismatches.isEmpty then none else some (.decode service mismatches))

theorem decodeInto_outcome (service : Text) (c : ServiceConfig) (g : Loaded (Except LoadError Tree)) :
    ((decodeInto service c g).value, (decodeInto service c g).error) = outcome service c g.value := by
  unfold decodeInto
  cases g.value <;> rfl

theorem loadConfig_outcome (s : Surroundings) (service : Text) (o : LoadOptions) (c : ServiceConfig) :
    ((loadConfig s service o c).value, (loadConfig s service o c).error) =
      outcome service c (gather s service o).value :=
  decodeInto_outcome service c (gather s service o)

theorem loadConfig_environment (s : Surroundings) (service : Text) (o : LoadOptions)
    (c : ServiceConfig) :
    (loadConfig s service o c).environment = (gather s service o).environment := by
  unfold loadConfig decodeInto
  split <;> rfl

/-- What a load with defaults and checks comes to, from what it comes to without. -/
def completed (service : Text) : ServiceConfig × Option LoadError → ServiceConfig × Option LoadError
  | (c, some e) => (c, some e)
  | (c, none) => (complete service c, (complete service c).problem?.map .invalid)

theorem finish_outcome (service : Text) (l : Loaded ServiceConfig) :
    ((finish service l).value, (finish service l).error) = completed service (l.value, l.error) := by
  unfold finish
  cases h : l.error with
  | some e =>
      simp only
      rw [h]
      rfl
  | none => rfl

theorem load_outcome (s : Surroundings) (service : Text) (o : LoadOptions) (c : ServiceConfig) :
    ((load s service o c).value, (load s service o c).error) =
      completed service (outcome service c (gather s service o).value) := by
  rw [← loadConfig_outcome]
  exact finish_outcome service (loadConfig s service o c)

theorem loadSettings_environment (s : Surroundings) (service : Text) (o : LoadOptions) :
    (loadSettings s service o).environment = (gather s service o).environment := by
  unfold loadSettings settingsFrom
  split <;> rfl

theorem load_environment (s : Surroundings) (service : Text) (o : LoadOptions) (c : ServiceConfig) :
    (load s service o c).environment = (loadConfig s service o c).environment := by
  unfold load finish
  split <;> rfl

theorem load_writes (s : Surroundings) (service : Text) (o : LoadOptions) (c : ServiceConfig) :
    (load s service o c).writes = (gather s service o).writes := by
  have hconfig : (loadConfig s service o c).writes = (gather s service o).writes := by
    unfold loadConfig decodeInto
    split <;> rfl
  rw [← hconfig]
  unfold load finish
  split <;> rfl

/-- Does a load come to an end? -/
def Loaded.ends {α : Type} (l : Loaded α) : Bool :=
  match l.error with
  | some (.defect _) => false
  | _ => true

/-- A load that comes to an end with its file read merges its layers. -/
theorem merged_of_ends {s : Surroundings} {service : Text} {o : LoadOptions} {c : ServiceConfig}
    (h : (loadConfig s service o c).ends = true) {file : Tree} (hfile : fileOf s service o = .ok file) :
    ∃ t, (layersOf s service o).merged = .ok t ∧ (gather s service o).value = .ok t := by
  have hvalue := gather_value s service o
  rw [hfile] at hvalue
  cases hmerged : (layersOf s service o).merged with
  | ok t =>
      simp only [hmerged] at hvalue
      exact ⟨t, rfl, hvalue⟩
  | error d =>
      simp only [hmerged] at hvalue
      have herror := congrArg Prod.snd (loadConfig_outcome s service o c)
      rw [hvalue] at herror
      have hdefect : (loadConfig s service o c).error = some (.defect d) := herror
      rw [Loaded.ends, hdefect] at h
      cases h

/-- A load without an error has read its file and decodes all settings. -/
theorem loadConfig_ok {s : Surroundings} {service : Text} {o : LoadOptions} {c : ServiceConfig}
    (h : (loadConfig s service o c).error = none) :
    (loadConfig s service o c).environment = variablesOf s service o ∧
      ∃ file t, fileOf s service o = .ok file ∧ (layersOf s service o).merged = .ok t ∧
        decodeService c t = ((loadConfig s service o c).value, []) := by
  have hout := loadConfig_outcome s service o c
  rw [h] at hout
  have hvalue := gather_value s service o
  cases hfile : fileOf s service o with
  | error mistake =>
      rw [hfile] at hvalue
      rw [hvalue] at hout
      cases congrArg Prod.snd hout
  | ok file =>
      rw [hfile] at hvalue
      refine ⟨(loadConfig_environment s service o c).trans (gather_environment hfile), file, ?_⟩
      cases hmerged : (layersOf s service o).merged with
      | error d =>
          simp only [hmerged] at hvalue
          rw [hvalue] at hout
          cases congrArg Prod.snd hout
      | ok t =>
          simp only [hmerged] at hvalue
          rw [hvalue] at hout
          refine ⟨t, rfl, rfl, ?_⟩
          obtain ⟨hc, he⟩ := Prod.mk.inj hout
          refine Prod.ext hc.symm ?_
          change none = (if (decodeService c t).2.isEmpty then none else some _) at he
          split at he
          · rename_i hempty
            exact List.isEmpty_iff.mp hempty
          · cases he

end ServiceKit.Config
