import Mathlib
import ServiceKit.Proofs.Log.Events

/-!
The level of a logger. All loggers that are derived from one have its level, and the level decides which
calls write but not what they write. So of two runs of the same actions, the one at the higher level
writes what is left of the other's lines without those of lower calls.
-/

namespace ServiceKit.Log

namespace Logger

def atLevel (l : Logger) (level : Level) : Logger := { l with level := level }

theorem derive_atLevel (l : Logger) (v : Level) (d : Derivation) :
    (l.atLevel v).derive d = (l.derive d).atLevel v := by
  rw [derive_eq, derive_eq]
  rfl

theorem ofConfig_level (c : Config) (level component : Text) (stream : Stream) :
    ofConfig { c with level := level } component stream =
      (ofConfig c component stream).atLevel (Level.configured level) := rfl

theorem log_of_lower {l : Logger} {level : Level} (h : level < l.level) (a : Ambient) (message : Text)
    (fields : List (Keyed Detail)) : l.log a level message fields = none := by
  rw [log, enabled, decide_eq_false (Int.not_le.mpr h)]
  rfl

/-- A logger at a higher level writes the same lines, but for calls that are too low. -/
theorem log_atLevel {low high : Level} (h : low ≤ high) (l : Logger) (a : Ambient) (level : Level)
    (message : Text) (fields : List (Keyed Detail)) :
    (l.atLevel high).log a level message fields =
      ((l.atLevel low).log a level message fields).filter fun _ => high ≤ level := by
  have hevent (v : Level) : (l.atLevel v).deliver a ((l.atLevel v).event a level message fields) =
      l.deliver a (l.event a level message fields) := rfl
  have henabled (v : Level) : (l.atLevel v).enabled a level = (v ≤ level && a.leastLevel ≤ level) := rfl
  rw [log, log, hevent, hevent, henabled, henabled]
  by_cases hhigh : high ≤ level
  · have hlow : low ≤ level := Int.le_trans h hhigh
    simp only [hhigh, hlow]
    split <;> rfl
  · simp [hhigh]

end Logger

/-! ### Lines and the calls that they stem from -/

/-- The lines of a run, each with the action that writes it. -/
def attributed : List Logger → List Action → List (Action × Write)
  | _, [] => []
  | loggers, action :: rest =>
    (action.write loggers).toList.map (action, ·)
      ++ attributed (loggers ++ (action.derived loggers).toList) rest

theorem map_snd_attributed (loggers : List Logger) (actions : List Action) :
    (attributed loggers actions).map Prod.snd = run loggers actions := by
  induction actions generalizing loggers with
  | nil => rfl
  | cons action rest ih =>
      rw [attributed, run, List.map_append, List.map_map, ih]
      exact congrArg (· ++ _) (List.map_id _)

namespace Action

/-- Is an action a call of some level or a higher one? -/
def isAtLeast (level : Level) : Action → Bool
  | derive .. => false
  | call _ _ l _ _ => level ≤ l

theorem write_atLevel {low high : Level} (h : low ≤ high) (loggers : List Logger) (action : Action) :
    action.write (loggers.map (Logger.atLevel · high)) =
      (action.write (loggers.map (Logger.atLevel · low))).filter fun _ => action.isAtLeast high := by
  cases action with
  | derive of d => rfl
  | call of a level message fields =>
      rw [write, write, List.getElem?_map, List.getElem?_map]
      cases loggers[of]? with
      | none => rfl
      | some l => exact l.log_atLevel h a level message fields

end Action

/-- What one action keeps, a run keeps: the loggers of both runs differ in their level alone. -/
theorem attributed_atLevel {low high : Level} (h : low ≤ high) (loggers : List Logger)
    (actions : List Action) :
    attributed (loggers.map (Logger.atLevel · high)) actions =
      (attributed (loggers.map (Logger.atLevel · low)) actions).filter
        fun e => e.1.isAtLeast high := by
  induction actions generalizing loggers with
  | nil => rfl
  | cons action rest ih =>
      have hgrown (v : Level) : loggers.map (Logger.atLevel · v) ++
          (action.derived (loggers.map (Logger.atLevel · v))).toList =
            (loggers ++ (action.derived loggers).toList).map (Logger.atLevel · v) :=
        Logger.append_derived_map (fun l d => l.derive_atLevel v d) loggers action
      rw [attributed, attributed, hgrown, hgrown, ih, List.filter_append, action.write_atLevel h]
      congr 1
      cases action.write (loggers.map (Logger.atLevel · low)) with
      | none => rfl
      | some w => cases hleast : action.isAtLeast high <;> simp [hleast]

/-! ### Configured levels -/

namespace Level

/-- The levels that a configuration may name. -/
def ranks : List Level := [trace, debug, info, warn, error, fatal]

theorem configured_name : ∀ level ∈ ranks, configured level.name = level := by decide

theorem configured_of_unknown {text : Text} (h : text = [] ∨ ofText? text = none) :
    configured text = info := by
  rw [configured]
  rcases h with h | h
  · rw [h]
    rfl
  · rw [h]
    exact ite_self _

end Level

/-- Raising the level only removes lines. Whatever is done with a logger and those derived from it, at
the higher level exactly those lines are left that stem from calls of that level or above. A text that
names no level stands for `info`. -/
theorem run_at_higher_level (c : Config) (component : Text) (stream : Stream) (actions : List Action) :
    (∀ low ∈ Level.ranks, ∀ high ∈ Level.ranks, low ≤ high →
      run [.ofConfig { c with level := high.name } component stream] actions =
        ((attributed [.ofConfig { c with level := low.name } component stream] actions).filter
          fun e => e.1.isAtLeast high).map Prod.snd ∧
      run [.ofConfig { c with level := low.name } component stream] actions =
        (attributed [.ofConfig { c with level := low.name } component stream] actions).map Prod.snd) ∧
    ∀ text, text = [] ∨ Level.ofText? text = none →
      run [.ofConfig { c with level := text } component stream] actions =
        run [.ofConfig { c with level := Level.info.name } component stream] actions := by
  have hconfigured (level : Level) (hlevel : level ∈ Level.ranks) :
      [Logger.ofConfig { c with level := level.name } component stream] =
        [Logger.ofConfig c component stream].map (Logger.atLevel · level) := by
    rw [Logger.ofConfig_level, Level.configured_name level hlevel]
    rfl
  constructor
  · intro low hlow high hhigh hle
    refine ⟨?_, (map_snd_attributed _ _).symm⟩
    rw [← map_snd_attributed, hconfigured high hhigh, hconfigured low hlow, attributed_atLevel hle]
  · intro text htext
    rw [hconfigured Level.info (by decide), Logger.ofConfig_level c text,
      Level.configured_of_unknown htext]
    rfl

/-- A call of some second after midnight. -/
def newYear (second : Nat) : Ambient where
  now := { year := 2024, month := 1, day := 1, second := second }
  caller := []

/-- Calls of four levels, a second apart, on a logger and on two that are derived from it. -/
def mixedActions : List Action :=
  [.derive 0 (.component (utf8 "db")), .call 1 (newYear 0) Level.debug (utf8 "a") [],
    .derive 1 (.error (some (utf8 "lost"))), .call 2 (newYear 1) Level.warn (utf8 "b") [],
    .call 0 (newYear 2) Level.info (utf8 "c") [],
    .call 1 (newYear 3) Level.error [] [[(utf8 "n", .bool true)]]]

/-- What they write with some configuration. -/
def mixedLines (c : Config) : List Text :=
  (run [.ofConfig c [] .stdout] mixedActions).map Write.line

theorem run_at_higher_level_mixed :
    mixedLines { level := utf8 "warn", format := utf8 "json", timestamp := true } =
      [utf8 "\x7b\"level\":\"warn\",\"component\":\"db\",\"error\":\"lost\","
          ++ utf8 "\"time\":\"2024-01-01T00:00:01Z\",\"message\":\"b\"\x7d\n",
        utf8 "\x7b\"level\":\"error\",\"component\":\"db\",\"n\":true,"
          ++ utf8 "\"time\":\"2024-01-01T00:00:03Z\"\x7d\n"] ∧
    (mixedLines { level := utf8 "debug", format := utf8 "json", timestamp := true }).length = 4 ∧
    mixedLines { level := utf8 "loud" } = mixedLines { level := utf8 "info" } := by
  obtain ⟨hraised, -⟩ :=
    run_at_higher_level { format := utf8 "json", timestamp := true } [] .stdout mixedActions
  obtain ⟨-, hunknown⟩ := run_at_higher_level {} [] .stdout mixedActions
  obtain ⟨hwarn, hdebug⟩ := hraised Level.debug (by decide) Level.warn (by decide) (by decide)
  refine ⟨?_, ?_, ?_⟩
  · exact (congrArg (List.map Write.line) hwarn).trans (by decide +kernel)
  · rw [mixedLines, List.length_map]
    exact (congrArg List.length hdebug).trans (by decide +kernel)
  · exact congrArg (List.map Write.line) (hunknown (utf8 "loud") (Or.inr (by decide +kernel)))

end ServiceKit.Log
