import Mathlib
import ServiceKit.Log.Labelled
import ServiceKit.Proofs.Log.Events

/-!
Lines with a label. The text of a line is put into the document of an event, read from it again and then
set as a line. It comes out as it went in, but for its stray bytes.
-/

namespace ServiceKit.Log

/-! ### Events read again -/

/-- A line for people is made of the members of its event; of several with one key the last counts. -/
theorem Console.membersOf_close {ms : List Member} (h : ∀ m ∈ ms, m.IsWritable)
    (hdepth : (Json.object (ms.map Member.found)).depth ≤ Json.maxDepth) :
    membersOf (Draft.ofMembers ms).close =
      .ok (Keyed.ofList (Json.canonicalMembers (ms.map Member.found))) := by
  have hread := Json.read_ok_iff.mpr ⟨Draft.isDocument_close h, hdepth⟩
  rw [membersOf, hread]
  rfl

/-- An event that is nested too deep cannot be read again. -/
theorem Console.membersOf_close_deep {ms : List Member} (h : ∀ m ∈ ms, m.IsWritable)
    (hdepth : Json.maxDepth < (Json.object (ms.map Member.found)).depth) :
    ∃ e, membersOf (Draft.ofMembers ms).close = .error e := by
  cases hread : Json.read (Draft.ofMembers ms).close with
  | ok x =>
      obtain ⟨hdocument, hle⟩ := Json.read_ok_iff.mp hread
      rw [hdocument.unique (Draft.isDocument_close h)] at hle
      exact absurd hdepth (Nat.not_lt.mpr hle)
  | error e =>
      refine ⟨e, ?_⟩
      rw [membersOf, hread]
      rfl

theorem Logger.deliver_console {l : Logger} {style : Console} (hform : l.form = .console style)
    {a : Ambient} {event line : Text} (hline : style.line a event = .ok line) :
    l.deliver a event = ⟨l.stream, line⟩ := by
  rw [deliver, hform]
  simp only [hline]

theorem Logger.deliver_notice {l : Logger} {style : Console} (hform : l.form = .console style)
    {a : Ambient} {event : Text} {e : Json.ReadError} (hevent : Console.membersOf event = .error e) :
    l.deliver a event = ⟨.stderr, notice e⟩ := by
  rw [deliver, hform]
  simp only [Console.line, hevent]
  rfl

theorem contentOf_append (stream : Stream) (ws vs : List Write) :
    contentOf stream (ws ++ vs) = contentOf stream ws ++ contentOf stream vs := by
  rw [contentOf, List.filter_append, List.flatMap_append]
  rfl

/-! ### Labelled lines -/

namespace Labelled

theorem event_lineLogger (stream : Stream) (a : Ambient) (text : Text) :
    (lineLogger stream).event a Level.unlevelled text [] =
      (Draft.ofMembers (Logger.messageMember text)).close :=
  Logger.event_eq (show (lineLogger stream).context = Draft.ofMembers [] from rfl) a Level.unlevelled
    text [] (Logger.isWritable_messageMember text)

theorem membersOf_message (text : Text) :
    Console.membersOf (Draft.ofMembers (Logger.messageMember text)).close =
      .ok (if text.isEmpty then [] else [(messageKey, .string text.sanitize)]) := by
  have hdepth : (Json.object ((Logger.messageMember text).map Member.found)).depth ≤ Json.maxDepth := by
    rw [Logger.found_messageMember]
    split <;> exact Nat.one_le_iff_ne_zero.mpr (by decide)
  rw [Console.membersOf_close (Logger.isWritable_messageMember text) hdepth,
    Logger.found_messageMember]
  split <;> rfl

/-- The only part of a line is its message, and nothing stands beside it. -/
theorem lineOf_message (a : Ambient) (text : Text) :
    Console.lineOf { noColor := true, parts := [.message] } a
      (if text.isEmpty then [] else [(messageKey, .string text.sanitize)]) = text.sanitize ++ [0x0A] := by
  cases text with
  | nil => rfl
  | cons b text =>
      rw [if_neg (by simp)]
      cases hs : Text.sanitize (b :: text) with
      | nil => rfl
      | cons d s =>
          change (d :: s ++ [] ++ [] ++ [0x0A] : Text) = _
          simp only [List.append_nil]

theorem deliver_lineLogger (a : Ambient) (stream : Stream) (text : Text) :
    (lineLogger stream).deliver a ((lineLogger stream).event a Level.unlevelled text []) =
      ⟨stream, text.sanitize ++ [0x0A]⟩ := by
  apply Logger.deliver_console rfl
  rw [Console.line, event_lineLogger, membersOf_message]
  exact congrArg Except.ok (lineOf_message a text)

/-- Every text is written as it is, but for its stray bytes, if anything at all is written. -/
theorem write_eq (a : Ambient) (stream : Stream) (text : Text) :
    write a stream text =
      if a.leastLevel ≤ Level.unlevelled then some ⟨stream, text.sanitize ++ [0x0A]⟩ else none := by
  have hlogger : (lineLogger stream).level ≤ Level.unlevelled := by
    change Level.trace ≤ Level.unlevelled
    decide
  have hother : (Level.unlevelled != Level.disabled) = true := by decide
  rw [write, Logger.log, Logger.enabled, deliver_lineLogger, hother, decide_eq_true hlogger,
    Bool.and_true, Bool.true_and]
  simp only [decide_eq_true_eq]

/-- What a call says on a stream. -/
def Call.lineOn (stream : Stream) : Call → Text
  | log l message =>
    if l.output = stream then
      l.label.sanitize ++ utf8 " " ++ message.sanitize ++ utf8 "\n"
    else []
  | error l message =>
    if l.errorOutput = stream then
      l.label.sanitize ++ utf8 " [ERROR] " ++ message.sanitize ++ utf8 "\n"
    else []

theorem sanitize_log (label message : Text) :
    Text.sanitize (label ++ 0x20 :: message) ++ [0x0A] =
      label.sanitize ++ utf8 " " ++ message.sanitize ++ utf8 "\n" := by
  have hspace : utf8 " " = [0x20] := by decide
  have hend : utf8 "\n" = [0x0A] := by decide
  rw [Text.sanitize_append_ascii (by decide), hspace, hend]
  simp only [List.append_assoc, List.singleton_append]

theorem sanitize_error (label message : Text) :
    Text.sanitize (label ++ 0x20 :: errorTag ++ 0x20 :: message) ++ [0x0A] =
      label.sanitize ++ utf8 " [ERROR] " ++ message.sanitize ++ utf8 "\n" := by
  have htag : utf8 " [ERROR]" = 0x20 :: errorTag.sanitize := by decide
  have hspaced : utf8 " [ERROR] " = utf8 " [ERROR]" ++ utf8 " " := by decide
  rw [sanitize_log, Text.sanitize_append_ascii (by decide), hspaced, htag]
  simp only [List.append_assoc]

theorem contentOf_write (a : Ambient) (call : Call) (stream : Stream) :
    contentOf stream (call.write a).toList =
      if a.leastLevel ≤ Level.unlevelled then call.lineOn stream else [] := by
  have hone (target : Stream) (line : Text) :
      contentOf stream [⟨target, line⟩] = if target = stream then line else [] := by
    by_cases htarget : target = stream <;> simp [contentOf, htarget]
  cases call with
  | log l message =>
      rw [Call.write, Labelled.log, write_eq, sanitize_log]
      split
      · exact hone l.output _
      · rfl
  | error l message =>
      rw [Call.write, Labelled.error, write_eq, sanitize_error]
      split
      · exact hone l.errorOutput _
      · rfl

/-- After any calls of any loggers, a stream holds the lines of the calls that are directed to it, in
their order. A program that writes not even lines without a level leaves it empty. -/
theorem contentOf_run (a : Ambient) (calls : List Call) (stream : Stream) :
    contentOf stream (run a calls) =
      if a.leastLevel ≤ Level.unlevelled then calls.flatMap (Call.lineOn stream) else [] := by
  induction calls with
  | nil => exact (ite_self _).symm
  | cons call calls ih =>
      have hrun : run a (call :: calls) = (call.write a).toList ++ run a calls := by
        rw [run, List.filterMap_cons]
        cases call.write a <;> rfl
      rw [hrun, contentOf_append, contentOf_write, ih]
      split
      · rw [List.flatMap_cons]
      · rfl

end Labelled

end ServiceKit.Log
