import Mathlib
import ServiceKit.Proofs.Log.Shown

/-!
Colours are decoration. A coloured line is the line without colours with escape sequences put into it,
and since nothing else brings the escape character into a line, deleting the sequences leaves the line
without colours.
-/

namespace ServiceKit.Log

/-! ### Deleting colours -/

/-- The length of the rest of a sequence that sets a colour, after its escape character: a bracket,
digits and an `m`. -/
def colourRest? : Text → Option Nat
  | 0x5B :: s =>
    let digits := s.takeWhile Text.isDigit
    if digits ≠ [] ∧ (s.drop digits.length).head? = some 0x6D then some (digits.length + 2) else none
  | _ => none

/-- A text without the sequences that set colours, of whose first one some bytes are still to be passed
over. -/
def dropColoursFrom : Nat → Text → Text
  | _, [] => []
  | 0, b :: s =>
    if b = 0x1B then
      match colourRest? s with
      | some n => dropColoursFrom n s
      | none => b :: dropColoursFrom 0 s
    else b :: dropColoursFrom 0 s
  | n + 1, _ :: s => dropColoursFrom n s

/-- A text without its sequences of an escape character, a bracket, digits and an `m`. -/
def dropColours (s : Text) : Text := dropColoursFrom 0 s

theorem dropColoursFrom_length (s t : Text) :
    dropColoursFrom s.length (s ++ t) = dropColoursFrom 0 t := by
  induction s with
  | nil => rfl
  | cons b s ih => exact ih

theorem dropColours_cons {b : UInt8} (hb : b ≠ 0x1B) (s : Text) :
    dropColours (b :: s) = b :: dropColours s := by
  rw [dropColours, dropColoursFrom, if_neg hb]
  rfl

theorem dropColours_sequence {digits : Text} (h : Json.Digits digits) (s : Text) :
    dropColours (0x1B :: 0x5B :: (digits ++ 0x6D :: s)) = dropColours s := by
  have htake : (digits ++ 0x6D :: s).takeWhile Text.isDigit = digits := by
    rw [List.takeWhile_append_of_pos h.2, List.takeWhile_cons_of_neg (by decide), List.append_nil]
  have hrest : colourRest? (0x5B :: (digits ++ 0x6D :: s)) = some (digits.length + 2) := by
    simp only [colourRest?, htake, List.drop_left, List.head?_cons]
    exact if_pos ⟨h.1, trivial⟩
  have hpassed := dropColoursFrom_length (0x5B :: (digits ++ [0x6D])) s
  have hlength : (0x5B :: (digits ++ [0x6D])).length = digits.length + 2 := by simp
  rw [hlength, List.cons_append, List.append_assoc, List.singleton_append] at hpassed
  rw [dropColours, dropColoursFrom, if_pos rfl, hrest]
  exact hpassed

/-! ### Coloured texts -/

/-- A text, and what it is without the sequences that set its colours. -/
inductive Tinted : Text → Text → Prop
  | nil : Tinted [] []
  | byte {b : UInt8} {s t : Text} : b ≠ 0x1B → Tinted s t → Tinted (b :: s) (b :: t)
  | sequence {digits s t : Text} : Json.Digits digits → Tinted s t →
      Tinted (0x1B :: 0x5B :: (digits ++ 0x6D :: s)) t

namespace Tinted

theorem dropColours_eq {s t : Text} (h : Tinted s t) : dropColours s = t := by
  induction h with
  | nil => rfl
  | byte hb _ ih => rw [dropColours_cons hb, ih]
  | sequence hdigits _ ih => rw [dropColours_sequence hdigits, ih]

theorem refl {s : Text} (h : 0x1B ∉ s) : Tinted s s := by
  induction s with
  | nil => exact .nil
  | cons b s ih =>
      rw [List.mem_cons, not_or] at h
      exact .byte (Ne.symm h.1) (ih h.2)

theorem append {s t s' t' : Text} (h : Tinted s t) (h' : Tinted s' t') :
    Tinted (s ++ s') (t ++ t') := by
  induction h with
  | nil => exact h'
  | byte hb _ ih => exact .byte hb ih
  | sequence hdigits _ ih =>
      simp only [List.cons_append, List.append_assoc]
      exact .sequence hdigits ih

theorem coloured {s t : Text} (h : Tinted s t) (code : Nat) : Tinted (coloured code s) t := by
  have hstart : utf8 "\x1b[" = [0x1B, 0x5B] := by decide
  have hend : utf8 "\x1b[0m" = [0x1B, 0x5B, 0x30, 0x6D] := by decide
  have hmark : utf8 "m" = [0x6D] := by decide
  have hreset : Tinted [0x1B, 0x5B, 0x30, 0x6D] [] :=
    .sequence Number.isWhole_zero.1 .nil
  have hset := Tinted.sequence (Number.digits_decimal code) (h.append hreset)
  rw [List.append_nil] at hset
  rw [Log.coloured, hstart, hend, hmark]
  simpa using hset

theorem colouredIf {s t : Text} (h : Tinted s t) (on : Bool) (code : Nat) :
    Tinted (colouredIf on code s) t := by
  cases on with
  | false => exact h
  | true => exact h.coloured code

theorem join {ss ts : List Text} (h : List.Forall₂ Tinted ss ts) :
    Tinted (Text.join [0x20] ss) (Text.join [0x20] ts) := by
  have hspace : Tinted [0x20] [0x20] := .refl (by decide)
  induction h with
  | nil => exact .nil
  | cons hst hrest ih =>
      cases hrest with
      | nil => exact hst
      | cons _ _ => exact (hst.append hspace).append ih

end Tinted

/-- Coloured and plain parts of a line: both of them are there, or none. -/
structure TintedPart (s t : Text) : Prop where
  tinted : Tinted s t
  eq_nil : t = [] → s = []

namespace TintedPart

theorem eq_nil_iff {s t : Text} (h : TintedPart s t) : s = [] ↔ t = [] := by
  refine ⟨?_, h.eq_nil⟩
  rintro rfl
  cases h.tinted
  rfl

theorem isEmpty_eq {s t : Text} (h : TintedPart s t) : s.isEmpty = t.isEmpty := by
  rw [Bool.eq_iff_iff, List.isEmpty_iff, List.isEmpty_iff, h.eq_nil_iff]

theorem nil : TintedPart [] [] := ⟨.nil, id⟩

theorem colouredIf {s : Text} (h : 0x1B ∉ s) (hne : s ≠ []) (on : Bool) (code : Nat) :
    TintedPart (colouredIf on code s) s :=
  ⟨(Tinted.refl h).colouredIf on code, fun hnil => absurd hnil hne⟩

theorem append {s t s' t' : Text} (h : TintedPart s t) (h' : TintedPart s' t') :
    TintedPart (s ++ s') (t ++ t') := by
  refine ⟨h.tinted.append h'.tinted, fun hnil => ?_⟩
  obtain ⟨ht, ht'⟩ := List.append_eq_nil_iff.mp hnil
  exact List.append_eq_nil_iff.mpr ⟨h.eq_nil ht, h'.eq_nil ht'⟩

theorem join {ss ts : List Text} (h : List.Forall₂ TintedPart ss ts) :
    TintedPart (Text.join [0x20] ss) (Text.join [0x20] ts) := by
  refine ⟨.join (h.imp fun _ _ hst => hst.tinted), fun hnil => ?_⟩
  cases h with
  | nil => rfl
  | cons hst hrest =>
      cases hrest with
      | nil => exact hst.eq_nil hnil
      | cons _ _ => simp [Text.join_cons_cons] at hnil

end TintedPart

/-! ### Lines -/

namespace Console

def uncoloured (c : Console) : Console := { c with noColor := true }

theorem tintedPart_joinParts {ss ts : List Text} (h : List.Forall₂ TintedPart ss ts) :
    TintedPart (joinParts ss) (joinParts ts) := by
  refine TintedPart.join (List.rel_filter (fun s t hst => ?_) h)
  simp only [hst.isEmpty_eq]

theorem not_mem_bracketed {s : Text} (h : 0x1B ∉ s) : 0x1B ∉ (0x5B :: s ++ [0x5D] : Text) := by
  rw [List.mem_append, List.mem_cons, not_or, not_or]
  exact ⟨⟨by decide, h⟩, by decide⟩

theorem tintedPart_levelTag (c : Console) {level : Finding} (h : level.IsPlain) :
    TintedPart (c.levelTag level) (c.uncoloured.levelTag level) := by
  have htags : ∀ e ∈ levelTags, 0x1B ∉ e.2.1 ∧ e.2.1 ≠ [] := by decide
  rw [levelTag, levelTag]
  cases hfind : levelTags.find? fun e => e.1 == (asText level).upper with
  | none =>
      have hword : 0x1B ∉ (asText level).upper :=
        fun hmem => h.not_mem_asText (Text.mem_of_mem_upper (by decide) hmem)
      exact ⟨.refl (not_mem_bracketed hword), id⟩
  | some e =>
      obtain ⟨word, tag, code⟩ := e
      obtain ⟨htag, hne⟩ := htags _ (List.mem_of_find?_eq_some hfind)
      cases code with
      | none => exact ⟨.refl htag, id⟩
      | some code => exact .colouredIf htag hne _ code

theorem tintedPart_componentTag (c : Console) (h : 0x1B ∉ c.component) :
    TintedPart c.componentTag c.uncoloured.componentTag := by
  have hshort : 0x1B ∉ Text.upper (c.component.take 3) :=
    fun hmem => h (List.mem_of_mem_take (Text.mem_of_mem_upper (by decide) hmem))
  have hsame : c.uncoloured.component = c.component := rfl
  rw [componentTag, componentTag, hsame]
  split
  · exact .nil
  · exact .colouredIf (not_mem_bracketed hshort) (List.cons_ne_nil _ _) _ 34

theorem tintedPart_callerPart (colour : Bool) (a : Ambient) {caller : Option Finding}
    (h : ∀ x, caller = some x → x.IsPlain) :
    TintedPart (callerPart colour a caller) (callerPart false a caller) := by
  cases caller with
  | none => exact .nil
  | some x =>
      cases x with
      | string s =>
          rw [callerPart, callerPart]
          split
          · exact .nil
          · have hplain := a.not_mem_shownPath ((h _ rfl).texts s (List.mem_singleton.mpr rfl))
            have hmark : Tinted (colouredIf colour 36 (utf8 " >")) (utf8 " >") :=
              (Tinted.refl (by decide)).colouredIf colour 36
            have hne : a.shownPath s ++ utf8 " >" ≠ [] := List.append_ne_nil_of_right_ne_nil _ (by decide)
            exact ⟨((Tinted.refl hplain).colouredIf colour 1).append hmark, fun hnil => absurd hnil hne⟩
      | _ => exact .nil

theorem tintedPart_messagePart (colour : Bool) (level : Option Finding) {message : Option Finding}
    (h : ∀ x, message = some x → x.IsPlain) :
    TintedPart (messagePart colour level message) (messagePart false level message) := by
  -- A message that is shown has a text, so that colours never stand around nothing.
  have hshown {x : Finding} (hx : x.IsPlain) (hne : x ≠ .string []) :
      TintedPart (colouredIf (colour && isBold level) 1 (asText x)) (asText x) :=
    .colouredIf hx.not_mem_asText (hx.asText_ne_nil hne) _ 1
  cases message with
  | none => exact .nil
  | some x =>
      cases x with
      | null => exact .nil
      | string s =>
          cases s with
          | nil => exact .nil
          | cons b s => exact hshown (h _ rfl) (by simp)
      | _ => exact hshown (h _ rfl) (by simp)

theorem tinted_fieldText (colour : Bool) {key : Text} (hkey : 0x1B ∉ key) {x : Finding}
    (hx : x.IsPlain) : Tinted (fieldText colour key x) (fieldText false key x) := by
  have hvalue := Tinted.refl hx.not_mem_fieldValue
  rw [fieldText, fieldText]
  split
  · have hname : 0x1B ∉ key ++ utf8 "=" := by
      rw [List.mem_append, not_or]
      exact ⟨hkey, by decide⟩
    exact ((Tinted.refl hname).colouredIf colour 36).append
      ((hvalue.colouredIf colour 1).colouredIf colour 31)
  · exact (Tinted.refl hkey).append (.byte (by decide) hvalue)

section

variable {seen : Keyed Finding} (hseen : ∀ e ∈ seen, 0x1B ∉ e.1 ∧ e.2.IsPlain)

include hseen

theorem tintedPart_partText {c : Console} (hc : 0x1B ∉ c.component) (colour : Bool) (a : Ambient)
    (part : Part) :
    TintedPart (c.partText colour a seen part) (c.uncoloured.partText false a seen part) := by
  have hfound (key : Text) (x : Finding) (hx : seen.find? key = some x) : x.IsPlain :=
    (hseen _ (Keyed.mem_of_find? hx)).2
  cases part with
  | time => exact .colouredIf (Timestamp.not_mem_clockText _) (Timestamp.clockText_ne_nil _) colour 90
  | level =>
      have hlevel : Finding.IsPlain ((seen.find? levelKey).getD .null) := by
        cases hx : seen.find? levelKey with
        | none => exact ⟨List.forall_mem_nil _, List.forall_mem_nil _⟩
        | some x => exact hfound levelKey x hx
      exact (c.tintedPart_componentTag hc).append (c.tintedPart_levelTag hlevel)
  | caller => exact tintedPart_callerPart colour a (hfound callerKey)
  | message => exact tintedPart_messagePart colour _ (hfound messageKey)

/-- The same line without colours. -/
theorem tinted_lineOf {c : Console} (hc : 0x1B ∉ c.component) (a : Ambient) :
    Tinted (c.lineOf a seen) (c.uncoloured.lineOf a seen) := by
  have hhead : TintedPart (joinParts (c.parts.map (c.partText (!c.noColor && !a.quiet) a seen)))
      (joinParts (c.parts.map (c.uncoloured.partText false a seen))) := by
    refine tintedPart_joinParts (List.forall₂_map_left_iff.mpr (List.forall₂_map_right_iff.mpr ?_))
    exact List.forall₂_same.mpr fun part _ => tintedPart_partText hseen hc _ a part
  have htail : Tinted
      (Text.join [0x20] ((otherFields seen).map fun e => fieldText (!c.noColor && !a.quiet) e.1 e.2))
      (Text.join [0x20] ((otherFields seen).map fun e => fieldText false e.1 e.2)) := by
    refine .join (List.forall₂_map_left_iff.mpr (List.forall₂_map_right_iff.mpr ?_))
    refine List.forall₂_same.mpr fun e he => ?_
    obtain ⟨hkey, hx⟩ := hseen e (mem_of_mem_otherFields he)
    exact tinted_fieldText _ hkey hx
  have hspace (apart : Bool) :
      Tinted (if apart then [0x20] else []) (if apart then [0x20] else []) := by
    split <;> exact .refl (by decide)
  -- A space follows the parts if there are any, which does not depend on colours.
  rw [lineOf]
  simp only [hhead.isEmpty_eq]
  exact ((hhead.tinted.append (hspace _)).append htail).append (.refl (by decide))

end

end Console

/-! ### Runs -/

/-- A write, and the same write without colours. -/
structure Write.IsTinted (w v : Write) : Prop where
  stream : w.stream = v.stream
  line : Tinted w.line v.line

def Form.uncoloured : Form → Form
  | json => json
  | console style => console style.uncoloured

namespace Logger

def uncoloured (l : Logger) : Logger := { l with form := l.form.uncoloured }

theorem derive_uncoloured (l : Logger) (d : Derivation) :
    l.uncoloured.derive d = (l.derive d).uncoloured := by
  rw [derive_eq, derive_eq]
  rfl

theorem uncoloured_ofConfig (c : Config) (noColor : Bool) (component : Text) (stream : Stream) :
    (ofConfig { c with noColor := noColor } component stream).uncoloured =
      ofConfig { c with noColor := true } component stream := by
  have hconsole (noColor : Bool) : Config.isConsole { c with noColor := noColor } = c.isConsole := rfl
  rw [uncoloured, ofConfig, ofConfig, hconsole noColor, hconsole true]
  cases c.isConsole <;> rfl

theorem isTinted_deliver {l : Logger} (h : l.IsPlain) (a : Ambient) {event : Text}
    (hevent : Json.LacksEscape event) : (l.deliver a event).IsTinted (l.uncoloured.deliver a event) := by
  rw [deliver, deliver]
  cases hform : l.form with
  | json =>
      have huncoloured : l.uncoloured.form = .json := by rw [uncoloured, hform]; rfl
      rw [huncoloured]
      exact ⟨rfl, .refl hevent.not_mem⟩
  | console style =>
      have huncoloured : l.uncoloured.form = .console style.uncoloured := by
        rw [uncoloured, hform]
        rfl
      rw [huncoloured]
      simp only [Console.line]
      cases hseen : Console.membersOf event with
      | error e => exact ⟨rfl, .refl (not_mem_notice e)⟩
      | ok seen =>
          exact ⟨rfl, Console.tinted_lineOf (Console.isPlain_of_membersOf hevent hseen)
            (h.component style hform) a⟩

/-- Whether a call writes does not depend on colours. -/
theorem isTinted_log {l : Logger} (h : l.IsPlain) {a : Ambient}
    (hcaller : l.caller = true → 0x1B ∉ a.caller) (level : Level) {message : Text}
    (hmessage : 0x1B ∉ message) {fields : List (Keyed Detail)}
    (hfields : ∀ t ∈ fields.flatMap Json.membersTexts, 0x1B ∉ t) :
    Option.Rel Write.IsTinted (l.log a level message fields) (l.uncoloured.log a level message fields) := by
  have hsame : l.uncoloured.enabled a level = l.enabled a level := rfl
  have hevent : l.uncoloured.event a level message fields = l.event a level message fields := rfl
  rw [log, log, hsame, hevent]
  split
  · exact .some (isTinted_deliver h a (h.lacksEscape_event hcaller level hmessage hfields))
  · exact .none

end Logger

theorem forall₂_toList {α β : Type} {R : α → β → Prop} {o : Option α} {p : Option β}
    (h : Option.Rel R o p) : List.Forall₂ R o.toList p.toList := by
  cases h with
  | none => exact .nil
  | some hxy => exact .cons hxy .nil

/-- The texts that an action is given: names, messages, keys and the strings of values, and the place
of a call if calls show theirs. -/
def Action.texts (caller : Bool) : Action → List Text
  | derive _ derivation => derivation.texts
  | call _ a _ message fields =>
    message :: (fields.flatMap Json.membersTexts ++ if caller then [a.caller] else [])

section

variable {caller : Bool} {loggers : List Logger}
  (hloggers : ∀ l ∈ loggers, l.IsPlain ∧ l.caller = caller)

include hloggers

theorem Action.isTinted_write {action : Action} (h : ∀ t ∈ action.texts caller, 0x1B ∉ t) :
    Option.Rel Write.IsTinted (action.write loggers) (action.write (loggers.map Logger.uncoloured)) := by
  cases action with
  | derive of d => exact .none
  | call of a level message fields =>
      obtain ⟨hmessage, hrest⟩ := List.forall_mem_cons.mp h
      obtain ⟨hfields, hplace⟩ := List.forall_mem_append.mp hrest
      rw [write, write, List.getElem?_map]
      cases hl : loggers[of]? with
      | none => exact .none
      | some l =>
          obtain ⟨hplain, hcaller⟩ := hloggers l (List.mem_of_getElem? hl)
          refine Logger.isTinted_log hplain (fun hshown => hplace _ ?_) level hmessage hfields
          rw [← hcaller, if_pos hshown]
          exact List.mem_singleton.mpr rfl

theorem Action.isPlain_derived {action : Action} (h : ∀ t ∈ action.texts caller, 0x1B ∉ t) :
    ∀ l ∈ loggers ++ (action.derived loggers).toList, l.IsPlain ∧ l.caller = caller := by
  refine List.forall_mem_append.mpr ⟨hloggers, fun l hl => ?_⟩
  cases action with
  | call of a level message fields => cases hl
  | derive of d =>
      obtain ⟨l, hof, rfl⟩ := Option.map_eq_some_iff.mp (Option.mem_toList.mp hl)
      obtain ⟨hplain, hcaller⟩ := hloggers l (List.mem_of_getElem? hof)
      refine ⟨hplain.derive h, ?_⟩
      rw [Logger.derive_eq]
      exact hcaller

/-- What holds of one action holds of a run: the loggers of both runs differ in their colours alone. -/
theorem isTinted_run {actions : List Action}
    (h : ∀ action ∈ actions, ∀ t ∈ action.texts caller, 0x1B ∉ t) :
    List.Forall₂ Write.IsTinted (run loggers actions) (run (loggers.map Logger.uncoloured) actions) := by
  induction actions generalizing loggers with
  | nil => exact .nil
  | cons action rest ih =>
      obtain ⟨haction, hrest⟩ := List.forall_mem_cons.mp h
      have hwritten := forall₂_toList (action.isTinted_write hloggers haction)
      rw [run, run, Logger.append_derived_map Logger.derive_uncoloured]
      exact List.rel_append hwritten (ih (action.isPlain_derived hloggers haction) hrest)

end

theorem tinted_contentOf {ws vs : List Write} (h : List.Forall₂ Write.IsTinted ws vs) (stream : Stream) :
    Tinted (contentOf stream ws) (contentOf stream vs) := by
  induction h with
  | nil => exact .nil
  | @cons w v ws vs hwv _ ih =>
      rw [contentOf, contentOf, List.filter_cons, List.filter_cons, hwv.stream]
      split
      · exact hwv.line.append ih
      · exact ih

/-- Colours are decoration. Whatever is done with a logger of any format and those derived from it, with
texts that have no escape character, deleting the sequences that set colours from what is written with
colours leaves what is written without them. -/
theorem dropColours_contentOf_run (c : Config) (component : Text) (stream : Stream)
    (actions : List Action) (hcomponent : 0x1B ∉ component)
    (hactions : ∀ action ∈ actions, ∀ t ∈ action.texts c.caller, 0x1B ∉ t) (target : Stream) :
    dropColours (contentOf target
        (run [.ofConfig { c with noColor := false } component stream] actions)) =
      contentOf target (run [.ofConfig { c with noColor := true } component stream] actions) := by
  have hlogger := Logger.isPlain_ofConfig { c with noColor := false } hcomponent stream
  have hrun := isTinted_run (List.forall_mem_singleton.mpr ⟨hlogger, rfl⟩) hactions
  rw [List.map_singleton, Logger.uncoloured_ofConfig] at hrun
  exact (tinted_contentOf hrun target).dropColours_eq

def noon : Ambient where
  now := { year := 2024, month := 2, day := 29, hour := 12 }
  caller := utf8 "/srv/app/main.go:7"
  directory := some [utf8 "srv", utf8 "tools"]

/-- A call whose place is no path from the root, where no colours are wanted. -/
def noonElsewhere : Ambient := { noon with quiet := true, caller := utf8 "main.go:9" }

/-- Calls of loggers with a name and an error, some of their texts like the rest of a sequence, and one
with members that take the place of its level and of its message. -/
def vividActions : List Action :=
  [.derive 0 (.component (utf8 "db")), .derive 1 (.error (some (utf8 "no [1m room"))),
    .call 2 noon Level.warn (utf8 "[31mlow") [[(utf8 "n", .array [.number (.int (-7)), .null])]],
    .call 1 noonElsewhere Level.info []
      [[(utf8 "message", .bool true)], [(utf8 "level", .string (utf8 "loud"))]]]

def vividConfig : Config := { format := utf8 "console", timestamp := true, caller := true }

/-- What they write, with colours or without. -/
def vividText (noColor : Bool) : Text :=
  contentOf .stderr
    (run [.ofConfig { vividConfig with noColor := noColor } (utf8 "apis") .stderr] vividActions)

theorem dropColours_contentOf_run_vivid :
    vividText false =
      utf8 "\x1b[90m12:00:00\x1b[0m \x1b[34m[API]\x1b[0m\x1b[33m[WRN]\x1b[0m \x1b[1m../app/main.go:7\x1b[0m"
        ++ utf8 "\x1b[36m >\x1b[0m \x1b[1m[31mlow\x1b[0m \x1b[36merror=\x1b[0m"
        ++ utf8 "\x1b[31m\x1b[1m\"no [1m room\"\x1b[0m\x1b[0m component:db n:[-7,null]\n"
        ++ utf8 "12:00:00 \x1b[34m[API]\x1b[0m[LOUD] main.go:9 > %!s(bool=true) component:db\n" ∧
    dropColours (vividText false) =
      utf8 "12:00:00 [API][WRN] ../app/main.go:7 > [31mlow error=\"no [1m room\" component:db n:[-7,null]\n"
        ++ utf8 "12:00:00 [API][LOUD] main.go:9 > %!s(bool=true) component:db\n" := by
  refine ⟨by decide +kernel, ?_⟩
  have hplain := dropColours_contentOf_run vividConfig (utf8 "apis") .stderr vividActions
    (by decide +kernel) (by decide +kernel) .stderr
  exact hplain.trans (by decide +kernel)

end ServiceKit.Log
