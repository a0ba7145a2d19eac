import Mathlib
import ServiceKit.Proofs.Check.Records
import ServiceKit.Proofs.Config.Loading

/-!
The end of a load. What was found is completed and then checked, by the tags of its fields and by the
lists of the log configuration. Defaults, tags and lists agree on which configurations are acceptable.
-/

namespace ServiceKit

/-! ### Log configurations -/

namespace Log.Config

theorem filled_eq (s fallback : Text) : filled s fallback = if s = [] then fallback else s := by
  cases s with
  | nil => cases fallback <;> rfl
  | cons b s => rfl

/-- An empty text is filled with an allowed one, and any other has to be allowed itself. -/
theorem filled_mem_iff {allowed : List Text} {fallback : Text} (hfallback : fallback ∈ allowed)
    (s : Text) :
    (if s = [] then fallback else s) ∈ allowed ↔ s ∈ [] :: allowed := by
  rw [List.mem_cons]
  split
  next h => exact ⟨fun _ => Or.inl h, fun _ => hfallback⟩
  next h => exact ⟨Or.inr, fun hs => hs.resolve_left h⟩

theorem problem?_eq_none_iff (c : Config) :
    c.problem? = none ↔ c.level ∈ levels ∧ c.format ∈ formats ∧ c.output ∈ outputs := by
  by_cases hlevel : c.level ∈ levels
  · by_cases hformat : c.format ∈ formats
    · by_cases houtput : c.output ∈ outputs <;> simp [problem?, hlevel, hformat, houtput]
    · simp [problem?, hlevel, hformat]
  · simp [problem?, hlevel]

theorem code_of_problem? {c : Config} {f : Failure} (h : c.problem? = some f) :
    f.code = Fault.invalidInputCode := by
  rw [problem?] at h
  split at h
  · cases h
    rfl
  split at h
  · cases h
    rfl
  split at h
  · cases h
    rfl
  · cases h

end Log.Config

/-! ### Configurations of services -/

namespace Config

namespace ServiceConfig

def environments : List Text := [utf8 "development", utf8 "staging", utf8 "production"]

/-- What the tags find wrong. -/
def tagErrors (c : ServiceConfig) : List Check.FieldError :=
  (if c.name = [] then [⟨utf8 "name", utf8 "is required"⟩] else []) ++
    (if c.environment ∈ environments then []
      else [⟨utf8 "environment", utf8 "must be one of: development staging production"⟩])

section Tags

variable {others : Check.OtherTests}

theorem checkValue_name (s : Text) :
    Check.checkValue others (utf8 "ServiceConfig.") nameField.publicName false
      [.test ⟨.required, utf8 "required", none⟩] (.string s) =
        .ok (if s = [] then [⟨utf8 "name", utf8 "is required"⟩] else []) := by
  have herror : Check.fieldError (utf8 "ServiceConfig.") nameField.publicName (utf8 "required") [] =
      ⟨utf8 "name", utf8 "is required"⟩ := by decide
  have hpasses : (⟨.required, utf8 "required", none⟩ : Check.NamedTest).passes others false (.string s) =
      .ok (!decide (s = [])) := by
    cases s <;> rfl
  rw [Check.checkValue_test _ _ _ hpasses]
  by_cases hs : s = []
  · rw [if_pos hs, decide_eq_true hs]
    exact congrArg (fun e => Except.ok [e]) herror
  · rw [if_neg hs, decide_eq_false hs]
    rfl

theorem checkValue_environment (s : Text) :
    Check.checkValue others (utf8 "ServiceConfig.") environmentField.publicName false
      [.test ⟨.oneOf, utf8 "oneof", some (utf8 "development staging production")⟩] (.string s) =
        .ok (if s ∈ environments then []
          else [⟨utf8 "environment", utf8 "must be one of: development staging production"⟩]) := by
  have herror : Check.fieldError (utf8 "ServiceConfig.") environmentField.publicName (utf8 "oneof")
        (utf8 "development staging production") =
      ⟨utf8 "environment", utf8 "must be one of: development staging production"⟩ := by decide
  have hwords : Check.choices ((utf8 "development staging production").length + 1)
      (utf8 "development staging production") = environments := by decide
  have hpasses : (⟨.oneOf, utf8 "oneof", some (utf8 "development staging production")⟩ :
      Check.NamedTest).passes others false (.string s) = .ok (environments.contains s) :=
    congrArg (fun words : List Text => Except.ok (words.contains s)) hwords
  rw [Check.checkValue_test _ _ _ hpasses]
  by_cases hs : s ∈ environments
  · rw [if_pos hs, if_pos (List.contains_iff_mem.mpr hs)]
  · rw [if_neg hs, if_neg (fun h => hs (List.contains_iff_mem.mp h))]
    exact congrArg (fun e => Except.ok [e]) herror

theorem validate_rules (c : ServiceConfig) :
    Check.validate others c.rules = .ok (Check.FieldError.failure? c.tagErrors) := by
  have hchains : List.mapM (fun f : Check.Field × Check.Value => Check.fieldChain others f.1)
      [(nameField, .string c.name), (environmentField, .string c.environment)] = .ok [
        some [.test ⟨.required, utf8 "required", none⟩],
        some [.test ⟨.oneOf, utf8 "oneof", some (utf8 "development staging production")⟩]] := rfl
  have hend : Check.checkFields others (utf8 "ServiceConfig.") [] [] = .ok [] := by
    simp [Check.checkFields]
  have hfields := Check.checkFields_cons (checkValue_name c.name)
    (Check.checkFields_cons (checkValue_environment c.environment) hend)
  rw [List.append_nil] at hfields
  exact Check.validate_of_chains hchains hfields

end Tags

theorem problem?_eq_none_iff (c : ServiceConfig) :
    c.problem? = none ↔ c.name ≠ [] ∧ c.environment ∈ environments ∧ c.logging.problem? = none := by
  have htags : c.tagErrors = [] ↔ c.name ≠ [] ∧ c.environment ∈ environments := by
    rw [tagErrors, List.append_eq_nil_iff]
    simp
  rw [problem?, validate_rules, ← and_assoc, ← htags, ← Check.failure?_eq_none_iff]
  cases Check.FieldError.failure? c.tagErrors <;> simp

theorem code_of_problem? {c : ServiceConfig} {f : Failure} (h : c.problem? = some f) :
    f.code = Fault.invalidInputCode := by
  rw [problem?, validate_rules] at h
  cases hfailure : Check.FieldError.failure? c.tagErrors with
  | none =>
      rw [hfailure] at h
      exact Log.Config.code_of_problem? h
  | some g =>
      rw [hfailure] at h
      cases h
      exact Check.code_of_failure? hfailure

/-- Each text is empty or an allowed one, and there is some name. -/
@[mk_iff]
structure IsAcceptable (service : Text) (c : ServiceConfig) : Prop where
  name : c.name ≠ [] ∨ service ≠ []
  environment : c.environment ∈ [[], utf8 "development", utf8 "staging", utf8 "production"]
  level : c.logging.level ∈ [[], utf8 "trace", utf8 "debug", utf8 "info", utf8 "warn", utf8 "error",
    utf8 "fatal"]
  format : c.logging.format ∈ [[], utf8 "json", utf8 "console", utf8 "pretty"]
  output : c.logging.output ∈ [[], utf8 "stdout", utf8 "stderr"]

instance (service : Text) (c : ServiceConfig) : Decidable (c.IsAcceptable service) :=
  decidable_of_iff _ (isAcceptable_iff service c).symm

end ServiceConfig

theorem complete_eq (service : Text) (c : ServiceConfig) :
    complete service c = { c with
      name := if c.name = [] then service else c.name
      environment := if c.environment = [] then utf8 "development" else c.environment
      logging := { c.logging with
        level := if c.logging.level = [] then (if c.debug then utf8 "debug" else utf8 "info")
          else c.logging.level
        format := if c.logging.format = [] then utf8 "console" else c.logging.format
        output := if c.logging.output = [] then utf8 "stderr" else c.logging.output } } := by
  have hlevel : Log.Config.filled (if c.debug then Log.Config.filled c.logging.level (utf8 "debug")
      else c.logging.level) (utf8 "info") =
      if c.logging.level = [] then (if c.debug then utf8 "debug" else utf8 "info")
      else c.logging.level := by
    have hword : utf8 "debug" ≠ [] := by decide
    by_cases hdebug : c.debug = true <;> by_cases hempty : c.logging.level = [] <;>
      simp [Log.Config.filled_eq, hdebug, hempty, hword]
  rw [complete, ServiceConfig.withDefaults, Log.Config.withDefaults]
  simp only [hlevel]
  simp only [Log.Config.filled_eq]

theorem problem?_complete_eq_none_iff (service : Text) (c : ServiceConfig) :
    (complete service c).problem? = none ↔ c.IsAcceptable service := by
  have hname : (if c.name = [] then service else c.name) ≠ [] ↔ c.name ≠ [] ∨ service ≠ [] := by
    split
    next h => simp [h]
    next h => simp [h]
  have hdebug : (if c.debug then utf8 "debug" else utf8 "info") ∈ Log.Config.levels := by
    split <;> decide
  rw [ServiceConfig.isAcceptable_iff, ServiceConfig.problem?_eq_none_iff,
    Log.Config.problem?_eq_none_iff, complete_eq]
  simp only
  rw [hname, Log.Config.filled_mem_iff (by decide), Log.Config.filled_mem_iff hdebug,
    Log.Config.filled_mem_iff (by decide), Log.Config.filled_mem_iff (by decide)]
  rfl

/-- What a load without an error leaves: its settings decoded and completed. -/
theorem load_ok {s : Surroundings} {service : Text} {o : LoadOptions} {c : ServiceConfig}
    (h : (load s service o c).error = none) :
    (load s service o c).environment = variablesOf s service o ∧
      ∃ file t d, fileOf s service o = .ok file ∧ (layersOf s service o).merged = .ok t ∧
        decodeService c t = (d, []) ∧ (load s service o c).value = complete service d ∧
        (complete service d).problem? = none := by
  have hout := finish_outcome service (loadConfig s service o c)
  change ((load s service o c).value, (load s service o c).error) = _ at hout
  cases herror : (loadConfig s service o c).error with
  | some e =>
      rw [herror, h] at hout
      cases congrArg Prod.snd hout
  | none =>
      rw [herror, h] at hout
      obtain ⟨hvalue, hproblem⟩ := Prod.mk.inj hout
      obtain ⟨henvironment, file, t, hfile, hmerged, hdecoded⟩ := loadConfig_ok herror
      exact ⟨(load_environment s service o c).trans henvironment, file, t, _, hfile, hmerged, hdecoded,
        hvalue, Option.map_eq_none_iff.mp hproblem.symm⟩

/-- What is decoded without an error is loaded without one exactly if it is acceptable. Its empty texts
are filled in either case and nothing else of it changes, and what is wrong with it is blamed on the
input. -/
theorem load_of_decoded (s : Surroundings) (service : Text) (o : LoadOptions) (c : ServiceConfig)
    {m : ServiceConfig} (herror : (loadConfig s service o c).error = none)
    (hm : (loadConfig s service o c).value = m) :
    ((load s service o c).error = none ↔ m.IsAcceptable service) ∧
      (load s service o c).value = { m with
        name := if m.name = [] then service else m.name
        environment := if m.environment = [] then utf8 "development" else m.environment
        logging := { m.logging with
          level := if m.logging.level = [] then (if m.debug then utf8 "debug" else utf8 "info")
            else m.logging.level
          format := if m.logging.format = [] then utf8 "console" else m.logging.format
          output := if m.logging.output = [] then utf8 "stderr" else m.logging.output } } ∧
      ∀ e, (load s service o c).error = some e →
        ∃ f, e = .invalid f ∧ Fault.isInputCode f.code = true := by
  have houtcome := finish_outcome service (loadConfig s service o c)
  rw [herror, hm] at houtcome
  obtain ⟨hvalue, hproblem⟩ := Prod.mk.inj houtcome
  change (load s service o c).value = _ at hvalue
  change (load s service o c).error = _ at hproblem
  refine ⟨?_, hvalue.trans (complete_eq service m), ?_⟩
  · rw [hproblem, Option.map_eq_none_iff, problem?_complete_eq_none_iff]
  · intro e he
    rw [hproblem] at he
    obtain ⟨f, hf, rfl⟩ := Option.map_eq_some_iff.mp he
    exact ⟨f, rfl, by rw [ServiceConfig.code_of_problem? hf]; decide +kernel⟩

/-- A settings file whose level is not allowed, unless a variable has another one. -/
def loudSurroundings (env : Environment) : Surroundings :=
  Surroundings.ofLists [(utf8 "config.yml",
    utf8 "debug: true\nlogging:\n  level: loud\n  format: pretty\n  prefix: \"\"\n")] env

theorem load_of_decoded_loud :
    (load (loudSurroundings []) (utf8 "svc") {} {}).error ≠ none ∧
      (load (loudSurroundings [(utf8 "LOGGING_LEVEL", [])]) (utf8 "svc") {} {}).error = none ∧
      (load (loudSurroundings [(utf8 "LOGGING_LEVEL", [])]) (utf8 "svc") {} {}).value = {
        name := utf8 "svc", environment := utf8 "development", debug := true
        logging := {
          level := utf8 "debug", format := utf8 "pretty", output := utf8 "stderr",
          label := some [] } } := by
  obtain ⟨hloud, -⟩ := load_of_decoded (loudSurroundings []) (utf8 "svc") {} {} (by decide +kernel) rfl
  obtain ⟨hquiet, hvalue, -⟩ := load_of_decoded (loudSurroundings [(utf8 "LOGGING_LEVEL", [])])
    (utf8 "svc") {} {} (by decide +kernel) rfl
  refine ⟨fun h => ?_, hquiet.mpr (by decide +kernel), hvalue.trans (by decide +kernel)⟩
  exact absurd (hloud.mp h) (by decide +kernel)

end Config

end ServiceKit
