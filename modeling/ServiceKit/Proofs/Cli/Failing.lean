import Mathlib
import ServiceKit.Cli.Run
import ServiceKit.Proofs.Cli.Isolation
import ServiceKit.Proofs.Config.Completion

/-!
Runs that fail. Standard output is for results: whatever makes a run fail, nothing was written there
before, unless the program's own lines go there. And what the exit code says of flags that cannot be
read.
-/

namespace ServiceKit

open Text
open Log (Stream Write)

/-! ### Where lines go -/

namespace Log

/-- Nothing of what is written goes to standard output. -/
def SparesOutput (ws : List Write) : Prop := ∀ w ∈ ws, w.stream ≠ .stdout

theorem sparesOutput_nil : SparesOutput [] := fun _ hw => nomatch hw

theorem SparesOutput.append {ws vs : List Write} (hws : SparesOutput ws) (hvs : SparesOutput vs) :
    SparesOutput (ws ++ vs) := by
  intro w hw
  rcases List.mem_append.mp hw with hw | hw
  · exact hws w hw
  · exact hvs w hw

/-- A logger writes to its own stream, and notices to the error stream. -/
theorem Logger.stream_of_log {l : Logger} {a : Ambient} {level : Level} {message : Text}
    {fields : List (Keyed Detail)} {w : Write} (h : l.log a level message fields = some w) :
    w.stream = l.stream ∨ w.stream = .stderr := by
  unfold Logger.log at h
  split at h
  · obtain rfl := Option.some.inj h
    unfold Logger.deliver
    split
    · exact .inl rfl
    · split
      · exact .inl rfl
      · exact .inr rfl
  · cases h

theorem Logger.sparesOutput_log {l : Logger} (hl : l.stream ≠ .stdout) (a : Ambient) (level : Level)
    (message : Text) (fields : List (Keyed Detail)) :
    SparesOutput (l.log a level message fields).toList := by
  intro w hw
  rcases Logger.stream_of_log (Option.mem_toList.mp hw) with hstream | hstream
  · rw [hstream]
    exact hl
  · rw [hstream]
    exact fun h => nomatch h

/-- An output that is allowed and is not standard output is the error stream. -/
theorem Logger.standardStream_of_outputs {c : Config} (hmem : c.output ∈ Config.outputs)
    (hne : c.output ≠ utf8 "stdout") : standardStream c.withDefaults = .stderr := by
  simp only [Config.outputs, List.mem_cons, List.not_mem_nil, or_false] at hmem
  have houtput : c.output = utf8 "stderr" := hmem.resolve_left hne
  have hfilled : c.withDefaults.output = utf8 "stderr" := by
    change Config.filled c.output _ = _
    rw [houtput]
    decide
  rw [standardStream, hfilled]
  decide

end Log

/-! ### Loads -/

namespace Config

open Log (SparesOutput)

theorem sparesOutput_fileNotes {s : Surroundings} {o : LoadOptions}
    (hlog : (loggerOf s o).stream ≠ .stdout) (service : Text) :
    SparesOutput (fileNotes s service o) := by
  unfold fileNotes
  split
  · exact Log.Logger.sparesOutput_log hlog _ _ _ _
  · exact Log.sparesOutput_nil

theorem sparesOutput_variableNotes {s : Surroundings} {o : LoadOptions}
    (hlog : (loggerOf s o).stream ≠ .stdout) (service : Text) :
    SparesOutput (variableNotes s service o) := by
  unfold variableNotes
  split
  · unfold loadVariables
    simp only
    split
    · exact Log.sparesOutput_nil
    · exact Log.Logger.sparesOutput_log hlog _ _ _ _
  · exact Log.sparesOutput_nil

/-- The lines of a load go where its logger writes. -/
theorem sparesOutput_load {s : Surroundings} {o : LoadOptions}
    (hlog : (loggerOf s o).stream ≠ .stdout) (service : Text) (c : ServiceConfig) :
    SparesOutput (load s service o c).writes := by
  rw [load_writes, gather_writes]
  split
  · exact Log.sparesOutput_nil
  · exact (sparesOutput_fileNotes hlog service).append (sparesOutput_variableNotes hlog service)

/-- A configuration that is loaded without an error names a level and an output that are allowed. -/
theorem logging_of_load {s : Surroundings} {service : Text} {o : LoadOptions} {c : ServiceConfig}
    (h : (load s service o c).error = none) :
    (load s service o c).value.logging.level ∈ Log.Config.levels ∧
      (load s service o c).value.logging.output ∈ Log.Config.outputs := by
  obtain ⟨-, file, t, d, -, -, -, hvalue, hproblem⟩ := load_ok h
  obtain ⟨-, -, hlogging⟩ := (ServiceConfig.problem?_eq_none_iff _).mp hproblem
  obtain ⟨hlevel, -, houtput⟩ := (Log.Config.problem?_eq_none_iff _).mp hlogging
  rw [hvalue]
  exact ⟨hlevel, houtput⟩

end Config

namespace Cli

open Log (SparesOutput)

/-! ### Commands -/

theorem Setup.sparesOutput_emit (s : Setup) {w : Option Write} (hw : SparesOutput w.toList) :
    SparesOutput (s.emit w) := by
  intro v hv
  unfold Setup.emit at hv
  split at hv
  · cases hv
  · have hstream := hw _ (Option.mem_toList.mpr rfl)
    split at hv
    · rw [if_neg hstream] at hv
      exact List.mem_singleton.mp hv ▸ hstream
    · exact List.mem_singleton.mp hv ▸ hstream

theorem Setup.sparesOutput_flatMap_emit (s : Setup) {ws : List Write} (hws : SparesOutput ws) :
    SparesOutput (ws.flatMap fun w => s.emit (some w)) := by
  intro v hv
  obtain ⟨w, hw, hv⟩ := List.mem_flatMap.mp hv
  refine s.sparesOutput_emit (w := some w) (fun u hu => ?_) v hv
  obtain rfl := List.mem_singleton.mp hu
  exact hws u hw

theorem sparesOutput_fail {log : Log.Logger} (hlog : log.stream ≠ .stdout) (s : Setup)
    (a : Log.Ambient) (stop : Stop) : SparesOutput (fail s log a stop).writes := by
  have hreport : ∀ f, SparesOutput (fail.report s log a f).writes := fun f =>
    s.sparesOutput_emit (Log.Logger.sparesOutput_log hlog _ _ _ _)
  cases stop with
  | help => exact Log.sparesOutput_nil
  | failure f => exact hreport f
  | other why => exact hreport _
  | defect d =>
      intro w hw
      obtain rfl := List.mem_singleton.mp hw
      exact fun h => nomatch h

namespace Ran

/-- A command that does not succeed has written nothing to standard output. -/
def StopsClean (r : Ran) : Prop := r.stop.isSome = true → SparesOutput r.writes

theorem stopsClean_failed (f : Failure) : (failed f).StopsClean := fun _ => Log.sparesOutput_nil

theorem StopsClean.after {r : Ran} (h : r.StopsClean) {ws : List Write} (hws : SparesOutput ws) :
    (r.after ws).StopsClean := fun hstop => hws.append (h hstop)

end Ran

namespace Context

open Ran (StopsClean)

/-- What is printed is printed as a whole or not at all. -/
theorem stopsClean_print (c : Context) (s : Text) : (c.print s).StopsClean := by
  unfold print
  split
  · exact fun _ => Log.sparesOutput_nil
  · exact fun h => nomatch h

theorem stopsClean_withFlags (command : String) (flags : List Flag) (args : List Text)
    {body : Parsed → Ran} (h : ∀ p, (body p).StopsClean) :
    (withFlags command flags args body).StopsClean := by
  unfold withFlags
  split
  · exact h _
  · intro _ w hw
    obtain rfl := List.mem_singleton.mp hw
    exact fun h => nomatch h
  · exact Ran.stopsClean_failed _

theorem stopsClean_withInput (c : Context) (words : List Text) {body : Text → Ran}
    (h : ∀ s, (body s).StopsClean) : (c.withInput words body).StopsClean := by
  unfold withInput
  split
  · exact h _
  · exact Ran.stopsClean_failed _

theorem stopsClean_withAtMost (field : String) (max : Nat) (words : List Text) {body : Ran}
    (h : body.StopsClean) : (withAtMost field max words body).StopsClean := by
  unfold withAtMost
  split
  · exact Ran.stopsClean_failed _
  · exact h

theorem stopsClean_printValue {c : Context} (hlog : c.logger.stream ≠ .stdout) (s : Text)
    (v : Option (Json Number.Binary64)) : (c.printValue s v).StopsClean := by
  cases v with
  | some v =>
      rw [printValue]
      split
      · exact c.stopsClean_print _
      · exact Ran.stopsClean_failed _
  | none =>
      exact (c.stopsClean_print _).after
        (c.setup.sparesOutput_emit (Log.Logger.sparesOutput_log hlog _ _ _ _))

theorem stopsClean_parse {c : Context} (hlog : c.logger.stream ≠ .stdout) (args : List Text) :
    (c.parse args).StopsClean := by
  refine stopsClean_withFlags _ _ _ fun p => stopsClean_withAtMost _ _ _ ?_
  refine c.stopsClean_withInput _ fun s => ?_
  split
  · split
    · exact stopsClean_printValue hlog _ _
    · exact Ran.stopsClean_failed _
  · exact stopsClean_printValue hlog _ _

end Context

/-- No command writes to standard output and then fails. -/
theorem stopsClean_command {name : Text} {command : Context → List Text → Ran}
    (hcommand : (name, command) ∈ commands) {c : Context} (hlog : c.logger.stream ≠ .stdout)
    (args : List Text) : (command c args).StopsClean := by
  simp only [commands, List.mem_cons, Prod.mk.injEq, List.not_mem_nil, or_false] at hcommand
  rcases hcommand with ⟨-, rfl⟩ | ⟨-, rfl⟩ | ⟨-, rfl⟩ | ⟨-, rfl⟩
  · exact Context.stopsClean_withFlags _ _ _ fun p =>
      c.stopsClean_withInput _ fun s => c.stopsClean_print _
  · exact Context.stopsClean_parse hlog args
  · -- lines with a label are written last and cannot fail
    refine Context.stopsClean_withFlags _ _ _ fun p h => ?_
    cases h
  · exact Context.stopsClean_withAtMost _ _ _ (c.stopsClean_print _)

/-! ### Runs -/

/-- The load of a run whose own flags are read. -/
def Setup.load (s : Setup) (p : Parsed) : Config.Loaded Config.ServiceConfig :=
  Config.load s.surroundings programName (s.loadOptions ((p.text? "config").getD []))
    { name := programName }

/-- The configuration of a run, if the run has a command and the load succeeds. -/
def Setup.config? (s : Setup) : Option Config.ServiceConfig :=
  match readFlags globalFlags false s.args with
  | .error _ => none
  | .ok p =>
    if (p.rest.head?.any fun name => commands.any fun c => c.1 == name) && (s.load p).error.isNone then
      some (s.load p).value
    else none

theorem diagnostics_stream (s : Setup) (c : Log.Config) :
    (diagnostics s c).stream = Log.Logger.standardStream c.withDefaults := rfl

/-- Before the configuration is known, the program's own lines go to the error stream. -/
theorem diagnostics_first_stream (s : Setup) : (diagnostics s {}).stream ≠ .stdout := by
  rw [diagnostics_stream]
  decide

theorem sparesOutput_setup_load (s : Setup) (p : Parsed) : SparesOutput (s.load p).writes := by
  refine Config.sparesOutput_load ?_ _ _
  rw [s.loggerOf_loadOptions]
  exact diagnostics_first_stream s

theorem run_of_command {s : Setup} {p : Parsed} (hflags : readFlags globalFlags false s.args = .ok p)
    {name : Text} {args : List Text} (hrest : p.rest = name :: args)
    {found : Text × (Context → List Text → Ran)}
    (hfound : (commands.find? fun c => c.1 == name) = some found) :
    run s = conclude s name found.2 args (s.load p) := by
  unfold run
  simp only [hflags, hrest, hfound]
  exact runCommand_eq s _ name found.2 args

theorem config?_of_command {s : Setup} {p : Parsed}
    (hflags : readFlags globalFlags false s.args = .ok p) {name : Text} {args : List Text}
    (hrest : p.rest = name :: args) {found : Text × (Context → List Text → Ran)}
    (hfound : (commands.find? fun c => c.1 == name) = some found)
    (hload : (s.load p).error = none) : s.config? = some (s.load p).value := by
  have hname := List.find?_some hfound
  have hany : (commands.any fun c => c.1 == name) = true :=
    List.any_eq_true.mpr ⟨found, List.mem_of_find?_eq_some hfound, hname⟩
  simp [Setup.config?, hflags, hrest, hany, hload]

theorem sparesOutput_conclude {s : Setup} {name : Text} {found : Text × (Context → List Text → Ran)}
    (hcommand : found ∈ commands) (args : List Text)
    {loaded : Config.Loaded Config.ServiceConfig} (hwrites : SparesOutput loaded.writes)
    (hlog : loaded.error = none → (diagnostics s loaded.value.logging).stream ≠ .stdout)
    (hcode : (conclude s name found.2 args loaded).exit.code ≠ 0) :
    SparesOutput (conclude s name found.2 args loaded).writes := by
  have hnoted := s.sparesOutput_flatMap_emit hwrites
  unfold conclude at hcode ⊢
  simp only at hcode ⊢
  cases herror : loaded.error with
  | some e => exact hnoted.append (sparesOutput_fail (diagnostics_first_stream s) _ _ _)
  | none =>
      rw [herror] at hcode
      simp only at hcode ⊢
      have hlog := hlog herror
      have hstarted := s.sparesOutput_emit (Log.Logger.sparesOutput_log hlog
        (s.ambient loaded.environment) Log.Level.debug (utf8 "running command")
        [Log.fieldsOf [.string Log.operationKey, .string name, .string (utf8 "environment"),
          .string loaded.value.environment]])
      have hclean := stopsClean_command hcommand (c := ⟨s, loaded.value,
        diagnostics s loaded.value.logging, s.ambient loaded.environment⟩) hlog args
      cases hstop : (found.2 ⟨s, loaded.value, diagnostics s loaded.value.logging,
          s.ambient loaded.environment⟩ args).stop with
      | none =>
          rw [hstop] at hcode
          exact absurd rfl hcode
      | some stop =>
          have hran := hclean (by rw [hstop]; rfl)
          exact ((hnoted.append hstarted).append hran).append (sparesOutput_fail hlog _ _ _)

/-- A run that fails has written nothing to standard output, unless it has loaded a configuration that
sends the program's own lines there. -/
theorem run_failing_sparesOutput {s : Setup} (hcode : (run s).exit.code ≠ 0)
    (houtput : ∀ c, s.config? = some c → c.logging.output ≠ utf8 "stdout") :
    ∀ w ∈ (run s).writes, w.stream ≠ .stdout := by
  have hfail := sparesOutput_fail (diagnostics_first_stream s) s (s.ambient s.environment)
  have hstderr : ∀ t, SparesOutput [⟨.stderr, t⟩] := by
    intro t w hw
    obtain rfl := List.mem_singleton.mp hw
    exact fun h => nomatch h
  cases hflags : readFlags globalFlags false s.args with
  | error stop =>
      unfold run
      simp only [hflags]
      cases stop with
      | help => exact (hstderr _).append (hfail _)
      | fault f => exact hfail _
  | ok p =>
      cases hrest : p.rest with
      | nil =>
          unfold run
          simp only [hflags, hrest]
          exact hstderr usage
      | cons name args =>
          cases hfound : commands.find? fun c => c.1 == name with
          | some found =>
              rw [run_of_command hflags hrest hfound] at hcode ⊢
              refine sparesOutput_conclude (List.mem_of_find?_eq_some hfound) args
                (sparesOutput_setup_load s p) (fun hload => ?_) hcode
              have hne := houtput _ (config?_of_command hflags hrest hfound hload)
              have hmem : (s.load p).value.logging.output ∈ Log.Config.outputs :=
                (Config.logging_of_load hload).2
              rw [diagnostics_stream, Log.Logger.standardStream_of_outputs hmem hne]
              exact fun h => nomatch h
          | none =>
              unfold run at hcode ⊢
              simp only [hflags, hrest, hfound] at hcode ⊢
              split at hcode
              · exact absurd rfl hcode
              · rename_i hhelp
                rw [if_neg hhelp]
                exact (hstderr usage).append (hfail _)

/-- A run that parses strictly, with a settings file that makes the program say what it does. -/
def strictSetup : Setup where
  args := [utf8 "parse", utf8 "--strict", utf8 "[1,]"]
  files := Config.Files.ofList
    [(utf8 "config.yml", .file (utf8 "logging:\n  level: debug\n  output: stderr\n"))]
  now := ⟨2024, 1, 2, 3, 4, 5, 0, .utc⟩

theorem run_failing_sparesOutput_strict :
    (run strictSetup).exit.code = 2 ∧
      (strictSetup.config?.map fun c => c.logging.output) = some (utf8 "stderr") ∧
      ∀ w ∈ (run strictSetup).writes, w.stream ≠ .stdout := by
  have hcode : (run strictSetup).exit.code = 2 := by decide +kernel
  have hconfig : (strictSetup.config?.map fun c => c.logging.output) = some (utf8 "stderr") := by
    decide +kernel
  refine ⟨hcode, hconfig, run_failing_sparesOutput (by rw [hcode]; decide) fun c hc => ?_⟩
  have houtput : c.logging.output = utf8 "stderr" := by
    rw [hc] at hconfig
    exact Option.some.inj hconfig
  rw [houtput]
  decide

/-! ### Flags that cannot be read -/

/-- The flags of the commands that have some. -/
def commandFlags (c : Config.ServiceConfig) : List (Text × List Flag) :=
  [(utf8 "format", Context.formatFlags c.format), (utf8 "parse", Context.parseFlags),
    (utf8 "log", Context.logFlags)]

theorem withFlags_of_fault {command : String} {flags : List Flag} {args : List Text} {f : FlagFault}
    (h : readFlags flags true args = .error (.fault f)) (body : Parsed → Ran) :
    Context.withFlags command flags args body =
      .failed ((Fault.invalidInput (utf8 "flags") f.message).withCause (some f.message)) := by
  unfold Context.withFlags
  rw [h]

/-- A command that cannot read its flags blames its input. -/
theorem command_of_fault {c : Context} {name : Text} {flags : List Flag}
    (hflags : (name, flags) ∈ commandFlags c.config) {args : List Text} {f : FlagFault}
    (h : readFlags flags true args = .error (.fault f)) :
    ∃ command, (commands.find? fun e => e.1 == name) = some (name, command) ∧
      command c args =
        .failed ((Fault.invalidInput (utf8 "flags") f.message).withCause (some f.message)) := by
  simp only [commandFlags, List.mem_cons, Prod.mk.injEq, List.not_mem_nil, or_false] at hflags
  rcases hflags with ⟨rfl, rfl⟩ | ⟨rfl, rfl⟩ | ⟨rfl, rfl⟩
  · exact ⟨Context.format, rfl, withFlags_of_fault h _⟩
  · exact ⟨Context.parse, rfl, withFlags_of_fault h _⟩
  · exact ⟨Context.log, rfl, withFlags_of_fault h _⟩

/-- A run with flags that cannot be read exits with 2 if they are the flags of its command and the
configuration is loaded, but with 1 if they stand before the command. -/
theorem run_exit_of_flagFault (s : Setup) (f : FlagFault) :
    (readFlags globalFlags false s.args = .error (.fault f) → (run s).exit.code = 1) ∧
      ∀ p name args flags, readFlags globalFlags false s.args = .ok p → p.rest = name :: args →
        (s.load p).error = none → (name, flags) ∈ commandFlags (s.load p).value →
        readFlags flags true args = .error (.fault f) → (run s).exit.code = 2 := by
  constructor
  · intro h
    unfold run
    simp only [h]
    rfl
  · intro p name args flags hglobal hrest hload hflags h
    obtain ⟨command, hfound, hran⟩ := command_of_fault (c := ⟨s, (s.load p).value,
      diagnostics s (s.load p).value.logging, s.ambient (s.load p).environment⟩) hflags h
    rw [run_of_command hglobal hrest hfound]
    unfold conclude
    simp only [hload, hran]
    rfl

/-- A run with arguments alone. -/
def bareSetup (args : List Text) : Setup where
  args := args
  files := Config.Files.ofList []
  now := ⟨2024, 1, 2, 3, 4, 5, 0, .utc⟩

theorem run_exit_of_flagFault_unknown :
    (run (bareSetup [utf8 "--nope", utf8 "version"])).exit.code = 1 ∧
      (run (bareSetup [utf8 "parse", utf8 "[]", utf8 "--nope"])).exit.code = 2 :=
  ⟨(run_exit_of_flagFault _ (.unknown (utf8 "nope"))).1 (by decide +kernel),
    (run_exit_of_flagFault _ (.unknown (utf8 "nope"))).2
      ⟨[], [utf8 "parse", utf8 "[]", utf8 "--nope"]⟩ (utf8 "parse") [utf8 "[]", utf8 "--nope"]
      Context.parseFlags (by decide +kernel) rfl (by decide +kernel) (by decide +kernel)
      (by decide +kernel)⟩

end Cli

end ServiceKit
