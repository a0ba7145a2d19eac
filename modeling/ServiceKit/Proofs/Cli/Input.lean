import Mathlib
import ServiceKit.Proofs.Cli.Parsing

/-!
Commands that work on a text. It makes no difference to a run whether the text stands among the arguments
or is read from standard input, where a line break may end it.
-/

namespace ServiceKit.Cli

/-! ### Arguments that can only be flags -/

/-- Two dashes and at least one byte more. -/
def isLong (arg : Text) : Bool := arg.startsWith (utf8 "--") && 2 < arg.length

theorem exists_of_isLong {arg : Text} (h : isLong arg = true) :
    ∃ b body, arg = 0x2D :: 0x2D :: b :: body := by
  simp only [isLong, Text.startsWith, Bool.and_eq_true, Option.isSome_iff_exists, decide_eq_true_eq] at h
  obtain ⟨⟨body, hbody⟩, hlength⟩ := h
  obtain rfl := Text.dropLead?_eq_some.mp hbody
  cases body with
  | nil => exact absurd hlength (by decide)
  | cons b body => exact ⟨b, body, rfl⟩

def Flag.isToggle (f : Flag) : Bool :=
  match f.kind with
  | .toggle _ => true
  | .text _ => false

theorem Flag.kind_of_isToggle {f : Flag} (h : f.isToggle = true) : ∃ on, f.kind = .toggle on := by
  unfold isToggle at h
  cases hkind : f.kind with
  | toggle on => exact ⟨on, rfl⟩
  | text start =>
      rw [hkind] at h
      cases h

section Reading

variable {flags : List Flag} {interspersed : Bool}

theorem longFlag_cases (htoggles : ∀ f ∈ flags, f.isToggle = true) (body : Text) :
    (∃ stop, longFlag flags body = .error stop) ∨
      ∃ name v, longFlag flags body = .ok (.value name v) := by
  unfold longFlag
  cases Text.cut? 0x3D body with
  | none =>
      cases hfind : flags.find? fun f => f.name == body with
      | none =>
          left
          simp only [hfind]
          exact ⟨_, rfl⟩
      | some f =>
          obtain ⟨on, hkind⟩ := Flag.kind_of_isToggle (htoggles f (List.mem_of_find?_eq_some hfind))
          right
          simp only [hfind, hkind]
          exact ⟨_, _, rfl⟩
  | some given =>
      obtain ⟨name, word⟩ := given
      cases hfind : flags.find? fun f => f.name == name with
      | none =>
          left
          simp only [hfind]
          exact ⟨_, rfl⟩
      | some f =>
          obtain ⟨on, hkind⟩ := Flag.kind_of_isToggle (htoggles f (List.mem_of_find?_eq_some hfind))
          simp only [hfind, hkind, FlagKind.read]
          cases Number.boolOf? word with
          | none => exact .inl ⟨_, rfl⟩
          | some on => exact .inr ⟨_, _, rfl⟩

/-- A toggle is complete in one argument. -/
theorem ofText_of_isLong (htoggles : ∀ f ∈ flags, f.isToggle = true) {arg : Text}
    (harg : isLong arg = true) :
    (∃ stop, Argument.ofText flags arg = .error stop) ∨
      ∃ name v, Argument.ofText flags arg = .ok (.value name v) := by
  obtain ⟨b, body, rfl⟩ := exists_of_isLong harg
  rw [Argument.ofText]
  split
  · exact .inl ⟨_, rfl⟩
  · exact longFlag_cases htoggles (b :: body)

theorem readFrom_error {arg : Text} {stop : FlagStop} (h : Argument.ofText flags arg = .error stop)
    (values : Keyed FlagValue) (rest : List Text) :
    readFrom flags interspersed values (arg :: rest) = .error stop := by
  cases rest with
  | nil =>
      rw [readFrom, h]
      rfl
  | cons next rest =>
      rw [readFrom, h]
      rfl

/-- Flags are read before what follows them, whatever that is. -/
theorem readFrom_append (htoggles : ∀ f ∈ flags, f.isToggle = true) {args : List Text}
    (hargs : ∀ arg ∈ args, isLong arg = true) (values : Keyed FlagValue) :
    (∃ stop, ∀ rest, readFrom flags interspersed values (args ++ rest) = .error stop) ∨
      ∃ values', ∀ rest, readFrom flags interspersed values (args ++ rest) =
        readFrom flags interspersed values' rest := by
  induction args generalizing values with
  | nil => exact .inr ⟨values, fun rest => rfl⟩
  | cons arg args ih =>
      obtain ⟨harg, hargs⟩ := List.forall_mem_cons.mp hargs
      rcases ofText_of_isLong htoggles harg with ⟨stop, hstop⟩ | ⟨name, v, hvalue⟩
      · exact .inl ⟨stop, fun rest => readFrom_error hstop values (args ++ rest)⟩
      · have hfirst (rest : List Text) : readFrom flags interspersed values (arg :: (args ++ rest)) =
            readFrom flags interspersed (Keyed.put name v values) (args ++ rest) :=
          readFrom_value hvalue values _
        rcases ih hargs (Keyed.put name v values) with ⟨stop, hstop⟩ | ⟨values', hvalues⟩
        · exact .inl ⟨stop, fun rest => (hfirst rest).trans (hstop rest)⟩
        · exact .inr ⟨values', fun rest => (hfirst rest).trans (hvalues rest)⟩

end Reading

namespace Context

/-- A command whose flags are toggles comes to the same with a text after its flags and without any, if
it does so once the flags are read. -/
theorem withFlags_append {command : String} {flags : List Flag}
    (htoggles : ∀ f ∈ flags, f.isToggle = true) {args : List Text} (hargs : ∀ arg ∈ args, isLong arg = true)
    (t : Text) {body body' : Parsed → Ran} (hbody : ∀ values, body ⟨values, []⟩ = body' ⟨values, [t]⟩) :
    withFlags command flags args body = withFlags command flags (args ++ [utf8 "--", t]) body' := by
  rcases readFrom_append htoggles hargs [] with ⟨stop, hstop⟩ | ⟨values, hvalues⟩
  · have hnone : readFlags flags true args = .error stop := by
      rw [← hstop [], List.append_nil]
      rfl
    have hword : readFlags flags true (args ++ [utf8 "--", t]) = .error stop := hstop _
    rw [withFlags, withFlags, hnone, hword]
    cases stop <;> rfl
  · have hnone : readFlags flags true args = .ok ⟨values, []⟩ := by
      rw [readFlags, ← List.append_nil args, hvalues]
      rfl
    have hword : readFlags flags true (args ++ [utf8 "--", t]) = .ok ⟨values, [t]⟩ :=
      (hvalues _).trans (readFrom_stop rfl values [t])
    rw [withFlags, withFlags, hnone, hword]
    exact hbody values

/-! ### The end of the input -/

/-- What may end a text that is read. -/
def lineEnds : List Text := [[], [0x0A], [0x0D, 0x0A]]

theorem dropBreak_append {t : Text} (ht : ∀ b ∈ t.getLast?, b ≠ 0x0D ∧ b ≠ 0x0A) {ending : Text}
    (hending : ending ∈ lineEnds) : dropBreak (t ++ ending) = t := by
  have hfeed : t.getLast? ≠ some 0x0A := fun h => (ht _ h).2 rfl
  have hreturn : t.getLast? ≠ some 0x0D := fun h => (ht _ h).1 rfl
  simp only [lineEnds, List.mem_cons, List.not_mem_nil, or_false] at hending
  rcases hending with rfl | rfl | rfl
  · rw [List.append_nil, dropBreak]
    simp only [if_neg hfeed, if_neg hreturn]
  · rw [dropBreak]
    simp only [List.getLast?_concat, if_true, List.dropLast_concat, if_neg hreturn]
  · rw [dropBreak, List.append_cons]
    simp only [List.getLast?_concat, if_true, List.dropLast_concat]

end Context

/-! ### The same text on both ways -/

/-- The same surroundings with a text to read. -/
def Setup.reading (s : Setup) (input : Text) : Setup := { s with input := input, inputError := none }

namespace Context

/-- The same surroundings with a text to read and other arguments of the run. -/
def reading (c : Context) (words : List Text) (input : Text) : Context :=
  { c with setup := { c.setup.reading input with args := words } }

section

variable {t input : Text} (hinput : dropBreak input = t)

include hinput

theorem withInput_reading (c : Context) (words : List Text) {body body' : Text → Ran}
    (hbody : body t = body' t) : (c.reading words input).withInput [] body = c.withInput [t] body' := by
  have hread : (c.reading words input).inputOf [] = .ok t := congrArg Except.ok hinput
  rw [withInput, withInput, hread, inputOf_one]
  exact hbody

variable {args : List Text} (hargs : ∀ arg ∈ args, isLong arg = true)

include hargs

theorem format_reading (c : Context) (words : List Text) :
    (c.reading words input).format args = c.format (args ++ [utf8 "--", t]) := by
  apply withFlags_append _ hargs
  · intro values
    exact withInput_reading hinput c words rfl
  · intro f hf
    simp only [formatFlags, List.mem_cons, List.not_mem_nil, or_false] at hf
    rcases hf with rfl | rfl <;> rfl

theorem parse_reading (c : Context) (words : List Text) :
    (c.reading words input).parse args = c.parse (args ++ [utf8 "--", t]) := by
  apply withFlags_append _ hargs
  · intro values
    rw [withAtMost_one, withAtMost_of_le (Nat.zero_le 1)]
    exact withInput_reading hinput c words rfl
  · intro f hf
    simp only [parseFlags, List.mem_cons, List.not_mem_nil, or_false] at hf
    subst hf
    rfl

end

end Context

/-- Apart from its command, a run looks neither at its arguments nor at its input. -/
theorem conclude_reading (s : Setup) (words : List Text) {input : Text} (name : Text)
    {command : Context → List Text → Ran} {args args' : List Text}
    {loaded : Config.Loaded Config.ServiceConfig}
    (h : command ((s.context loaded).reading words input) args = command (s.context loaded) args') :
    conclude { s.reading input with args := words } name command args loaded =
      conclude s name command args' loaded := by
  have hcontext : ({ s.reading input with args := words } : Setup).context loaded =
      (s.context loaded).reading words input := rfl
  rw [← hcontext] at h
  have hstops := congrArg Ran.stop h
  cases hload : loaded.error with
  | some e =>
      unfold conclude
      simp only [hload]
      rfl
  | none =>
      cases hstop : (command (s.context loaded) args').stop with
      | none =>
          rw [conclude_of_success hload hstop, conclude_of_success hload (hstops.trans hstop), h]
          rfl
      | some stop =>
          rw [conclude_of_stop hload hstop, conclude_of_stop hload (hstops.trans hstop), h]
          rfl

theorem ofText_format : Argument.ofText globalFlags (utf8 "format") = .ok .plain := rfl

theorem find?_format :
    (commands.find? fun c => c.1 == utf8 "format") = some (utf8 "format", Context.format) := rfl

/-- The commands that work on a text. -/
def textCommands : List Text := [utf8 "format", utf8 "parse"]

/-- A text after flags and two dashes is as good as one on standard input, whether it ends there without a
line break or with one. Given nothing but flags before it, a command that works on a text ends alike on
both ways and writes the same to all streams, also where it refuses the flags or the text. -/
theorem run_reading (s : Setup) (config : Option Text) {name : Text} (hname : name ∈ textCommands)
    {flags : List Text} (hflags : ∀ arg ∈ flags, isLong arg = true) {t : Text}
    (ht : ∀ b ∈ t.getLast?, b ≠ 0x0D ∧ b ≠ 0x0A) {ending : Text} (hending : ending ∈ Context.lineEnds) :
    run ((s.reading (t ++ ending)).command config name flags) =
      run (s.command config name (flags ++ [utf8 "--", t])) := by
  have hinput := Context.dropBreak_append ht hending
  simp only [textCommands, List.mem_cons, List.not_mem_nil, or_false] at hname
  rcases hname with rfl | rfl
  · rw [run_command _ config ofText_format find?_format, run_command _ config ofText_format find?_format]
    exact conclude_reading (s.command config _ _) _ _ (Context.format_reading hinput hflags _ _)
  · rw [run_command _ config ofText_parse find?_parse, run_command _ config ofText_parse find?_parse]
    exact conclude_reading (s.command config _ _) _ _ (Context.parse_reading hinput hflags _ _)

theorem run_reading_broken :
    run ((calmSetup.reading (utf8 "[1,\r\n2" ++ [0x0D, 0x0A])).command none (utf8 "parse")
        [utf8 "--strict=0", utf8 "--strict"]) =
      run (calmSetup.command none (utf8 "parse")
        ([utf8 "--strict=0", utf8 "--strict"] ++ [utf8 "--", utf8 "[1,\r\n2"])) ∧
    (run ((calmSetup.reading (utf8 "[1,\r\n2" ++ [0x0D, 0x0A])).command none (utf8 "parse")
        [utf8 "--strict=0", utf8 "--strict"])).exit.code = 2 :=
  ⟨run_reading calmSetup none (by decide) (by decide) (by decide +kernel) (by decide), by decide +kernel⟩

end ServiceKit.Cli
