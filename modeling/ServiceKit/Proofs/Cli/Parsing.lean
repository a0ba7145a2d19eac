import Mathlib
import ServiceKit.Proofs.Cli.Arguments
import ServiceKit.Proofs.Json.RoundTrip

/-!
The command that parses. It has a lenient way and a strict one, which print the same for a text that
can be decoded. Every value that is decoded can be printed, since all its numbers are finite.
-/

namespace ServiceKit.Cli

open Json (decodeText parseText Shape)
open Log (SparesOutput Stream Write contentOf)

namespace Context

theorem withAtMost_of_le {words : List Text} {max : Nat} (h : words.length ≤ max) (field : String)
    (body : Ran) : withAtMost field max words body = body := by
  have hfew : ¬((max : Int) < words.length) := by omega
  have hfailure : Check.Probe.failure? (.maxCount (utf8 field) words max) = none := if_neg hfew
  rw [withAtMost, Check.Collector.probe, hfailure]
  rfl

theorem withAtMost_one (field : String) (word : Text) (body : Ran) :
    withAtMost field 1 [word] body = body := withAtMost_of_le (Nat.le_refl 1) field body

theorem inputOf_one (c : Context) (word : Text) : c.inputOf [word] = .ok word := rfl

theorem parse_lenient (c : Context) (t : Text) :
    c.parse [utf8 "--", t] = c.printValue t (parseText .any t) := by
  have hflags : readFlags parseFlags true [utf8 "--", t] = .ok ⟨[], [t]⟩ := readFrom_stop rfl [] [t]
  rw [parse, withFlags, hflags]
  exact withAtMost_one "json" t _

theorem readFlags_strict (t : Text) :
    readFlags parseFlags true [utf8 "--strict", utf8 "--", t] =
      .ok ⟨[(utf8 "strict", .toggle true)], [t]⟩ :=
  (readFrom_value rfl [] _).trans (readFrom_stop rfl _ [t])

theorem toggle?_strict (rest : List Text) :
    (⟨[(utf8 "strict", .toggle true)], rest⟩ : Parsed).toggle? "strict" = some true := rfl

theorem parse_strict_of_ok (c : Context) {t : Text} {v : Option (Json Number.Binary64)}
    (h : decodeText .any t = .ok v) :
    c.parse [utf8 "--strict", utf8 "--", t] = c.printValue t v := by
  rw [parse, withFlags, readFlags_strict]
  simp only [withAtMost_one, withInput, inputOf_one, toggle?_strict, h, Option.getD_some, if_true]

theorem parse_strict_of_error (c : Context) {t : Text} {f : Failure}
    (h : decodeText .any t = .error f) :
    c.parse [utf8 "--strict", utf8 "--", t] = .failed f := by
  rw [parse, withFlags, readFlags_strict]
  simp only [withAtMost_one, withInput, inputOf_one, toggle?_strict, h, Option.getD_some, if_true]

/-- What is printed for a value of a text or for none, with nothing in its way. -/
theorem printValue_of_parse {c : Context} (houtput : c.setup.outputError = none)
    (hlog : c.logger.stream ≠ .stdout) {t : Text} {v? : Option (Json Number.Binary64)}
    (hv : parseText .any t = v?) :
    (c.printValue t v?).stop = none ∧
      contentOf .stdout (c.printValue t v?).writes = Shape.writeLine .any (v?.getD .null) := by
  have hprint (line : Text) : c.print line = { writes := [⟨.stdout, line⟩] } := by
    rw [print, houtput]
  cases v? with
  | none =>
      have hnull : Shape.writeLine .any .null = utf8 "null\n" := by decide
      have hspared := c.setup.sparesOutput_emit (Log.Logger.sparesOutput_log hlog c.ambient
        Log.Level.debug (utf8 "parse produced null") [Log.fieldsOf [.string Log.operationKey,
          .string (utf8 "parse"), .string (utf8 "bytes"), .number (.int t.length)]])
      rw [printValue, hprint]
      refine ⟨rfl, ?_⟩
      rw [Ran.after, Log.contentOf_append, contentOf_of_sparesOutput hspared, Option.getD_none, hnull]
      exact List.append_nil _
  | some v =>
      rw [Json.printValue_of_finite c t (Json.isFinite_of_parseText hv), hprint]
      exact ⟨rfl, List.append_nil _⟩

end Context

theorem ofText_parse : Argument.ofText globalFlags (utf8 "parse") = .ok .plain := rfl

theorem find?_parse :
    (commands.find? fun c => c.1 == utf8 "parse") = some (utf8 "parse", Context.parse) := rfl

section

variable {s : Setup} {config : Option Text}

/-- A run that prints a value of a text, or null. -/
theorem run_parse_of_printed (args : List Text) {t : Text} {v? : Option (Json Number.Binary64)}
    (houtput : s.outputError = none) (hload : (s.loadFor config).error = none)
    (hlog : Log.Logger.standardStream (s.loadFor config).value.logging.withDefaults = .stderr)
    (hv : parseText .any t = v?) (hprinted : ∀ c : Context, c.parse args = c.printValue t v?) :
    (run (s.command config (utf8 "parse") args)).exit.code = 0 ∧
      contentOf .stdout (run (s.command config (utf8 "parse") args)).writes =
        Shape.writeLine .any (v?.getD .null) := by
  have hstream : (diagnostics (s.command config (utf8 "parse") args)
      (s.loadFor config).value.logging).stream ≠ .stdout := by
    rw [diagnostics_stream, hlog]
    exact fun h => nomatch h
  obtain ⟨hstop, hcontent⟩ := Context.printValue_of_parse
    (c := (s.command config (utf8 "parse") args).context (s.loadFor config)) houtput hstream hv
  rw [← hprinted] at hstop hcontent
  rw [run_command s config ofText_parse find?_parse, conclude_of_success hload hstop]
  refine ⟨rfl, ?_⟩
  rw [Log.contentOf_append, contentOf_of_sparesOutput
    (sparesOutput_notes (sparesOutput_loadFor s config) hstream)]
  exact hcontent

/-- A run that refuses a text. -/
theorem run_parse_of_refused {args : List Text} {f : Failure}
    (hload : (s.loadFor config).error = none)
    (hlog : Log.Logger.standardStream (s.loadFor config).value.logging.withDefaults = .stderr)
    (hcode : f.code = Fault.invalidFormatCode) (hrefused : ∀ c : Context, c.parse args = .failed f) :
    (run (s.command config (utf8 "parse") args)).exit.code = 2 ∧
      contentOf .stdout (run (s.command config (utf8 "parse") args)).writes = [] := by
  have hstream : (diagnostics (s.command config (utf8 "parse") args)
      (s.loadFor config).value.logging).stream ≠ .stdout := by
    rw [diagnostics_stream, hlog]
    exact fun h => nomatch h
  have hran := hrefused ((s.command config (utf8 "parse") args).context (s.loadFor config))
  have hinput : Fault.isInputCode f.code = true := by
    rw [hcode]
    decide
  have hstop : (Context.parse ((s.command config (utf8 "parse") args).context (s.loadFor config))
      args).stop = some (.failure f) := congrArg Ran.stop hran
  rw [run_command s config ofText_parse find?_parse, conclude_of_stop hload hstop, hran]
  constructor
  · change (Exit.code (if Fault.isInputCode f.code then .badInput else .failure)) = 2
    rw [if_pos hinput]
    rfl
  · apply contentOf_of_sparesOutput
    refine SparesOutput.append (SparesOutput.append ?_ Log.sparesOutput_nil) ?_
    · exact sparesOutput_notes (sparesOutput_loadFor s config) hstream
    · exact sparesOutput_fail hstream _ _ _

end

/-- With the program's own lines on the error stream, parsing leniently always succeeds. Of a text that
can be decoded, parsing strictly prints the same: its value as a document on one line. Any other text is
`null` to the one, and is refused by the other without a word on standard output. -/
theorem run_parse_lenient_strict (s : Setup) (config : Option Text) (t : Text)
    (houtput : s.outputError = none) (hload : (s.loadFor config).error = none)
    (hlog : (s.loadFor config).value.logging.output = utf8 "stderr") :
    let lenient := run (s.command config (utf8 "parse") [utf8 "--", t])
    let strict := run (s.command config (utf8 "parse") [utf8 "--strict", utf8 "--", t])
    lenient.exit.code = 0 ∧
      (∀ v, decodeText .any t = .ok v → strict.exit.code = 0 ∧
        contentOf .stdout strict.writes = contentOf .stdout lenient.writes ∧
        contentOf .stdout strict.writes = Shape.writeLine .any (v.getD .null)) ∧
      ∀ f, decodeText .any t = .error f → strict.exit.code = 2 ∧
        contentOf .stdout strict.writes = [] ∧ contentOf .stdout lenient.writes = utf8 "null\n" := by
  intro lenient strict
  have hstream : Log.Logger.standardStream (s.loadFor config).value.logging.withDefaults = .stderr := by
    apply Log.Logger.standardStream_of_outputs
    · rw [hlog]
      decide
    · rw [hlog]
      decide
  obtain ⟨hcode, hlenient⟩ := run_parse_of_printed [utf8 "--", t] houtput hload hstream rfl
    fun c => c.parse_lenient t
  refine ⟨hcode, ?_, ?_⟩
  · intro v hv
    have hparsed : parseText .any t = v := by rw [parseText, hv]
    obtain ⟨hsuccess, hstrict⟩ := run_parse_of_printed [utf8 "--strict", utf8 "--", t]
      houtput hload hstream hparsed fun c => c.parse_strict_of_ok hv
    rw [hparsed] at hlenient
    exact ⟨hsuccess, hstrict.trans hlenient.symm, hstrict⟩
  · intro f hf
    obtain ⟨hformat, -, hnone⟩ := Json.decodeText_error hf
    obtain ⟨hrefused, hstrict⟩ := run_parse_of_refused hload hstream hformat
      fun c => c.parse_strict_of_error hf
    rw [hnone] at hlenient
    exact ⟨hrefused, hstrict, hlenient.trans (by decide +kernel)⟩

/-- A run that says little of itself, and on the error stream. -/
def calmSetup : Setup where
  args := []
  files := Config.Files.ofList
    [(utf8 "config.yml", .file (utf8 "logging:\n  level: warn\n  output: stderr\n"))]
  now := ⟨2024, 1, 2, 3, 4, 5, 0, .utc⟩

theorem run_parse_lenient_strict_calm :
    (run (calmSetup.command none (utf8 "parse")
        [utf8 "--strict", utf8 "--", utf8 "[1e2, \x7b\"b\": null, \"a\": 0.1\x7d]"])).exit.code = 0 ∧
      contentOf .stdout (run (calmSetup.command none (utf8 "parse")
        [utf8 "--strict", utf8 "--", utf8 "[1e2, \x7b\"b\": null, \"a\": 0.1\x7d]"])).writes =
          utf8 "[100,\x7b\"a\":0.1,\"b\":null\x7d]\n" ∧
      (run (calmSetup.command none (utf8 "parse")
        [utf8 "--strict", utf8 "--", utf8 "[1,]"])).exit.code = 2 ∧
      contentOf .stdout (run (calmSetup.command none (utf8 "parse")
        [utf8 "--", utf8 "[1,]"])).writes = utf8 "null\n" := by
  obtain ⟨-, hprinted, -⟩ := run_parse_lenient_strict calmSetup none
    (utf8 "[1e2, \x7b\"b\": null, \"a\": 0.1\x7d]") rfl (by decide +kernel) (by decide +kernel)
  obtain ⟨-, -, hrefused⟩ := run_parse_lenient_strict calmSetup none (utf8 "[1,]") rfl
    (by decide +kernel) (by decide +kernel)
  have hgood : (decodeText .any (utf8 "[1e2, \x7b\"b\": null, \"a\": 0.1\x7d]")).toBool = true := by
    decide +kernel
  have hbad : (decodeText .any (utf8 "[1,]")).toBool = false := by decide +kernel
  cases hv : decodeText .any (utf8 "[1e2, \x7b\"b\": null, \"a\": 0.1\x7d]") with
  | error f =>
      rw [hv] at hgood
      cases hgood
  | ok v =>
      cases hf : decodeText .any (utf8 "[1,]") with
      | ok w =>
          rw [hf] at hbad
          cases hbad
      | error f =>
          obtain ⟨hsuccess, hsame, -⟩ := hprinted v hv
          obtain ⟨hfailure, -, hnull⟩ := hrefused f hf
          exact ⟨hsuccess, hsame.trans (by decide +kernel), hfailure, hnull⟩

end ServiceKit.Cli
