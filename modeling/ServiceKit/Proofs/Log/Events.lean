import Mathlib
import ServiceKit.Log.Logger
import ServiceKit.Proofs.Json.Writing
import ServiceKit.Proofs.Number.Written
import ServiceKit.Proofs.Text.Pieces

/-!
The document of an event. Its text grows member by member, in the context of a logger, in the event and
where the two meet. Whatever the members hold, it is one line with one object that has just these
members.
-/

namespace ServiceKit

open Json (IsValue IsDocument IsMember IsMembers IsLine)

/-! ### The end of a value -/

/-- The text ends with a byte other than an opening brace. -/
def Json.EndsClosed (t : Text) : Prop := ∃ s b, t = s ++ [b] ∧ b ≠ 0x7B

theorem Json.EndsClosed.append {t : Text} (h : Json.EndsClosed t) (s : Text) :
    Json.EndsClosed (s ++ t) := by
  obtain ⟨r, b, rfl, hb⟩ := h
  exact ⟨s ++ r, b, (List.append_assoc s r [b]).symm, hb⟩

theorem Json.EndsClosed.getLast?_ne {t : Text} (h : Json.EndsClosed t) : t.getLast? ≠ some 0x7B := by
  obtain ⟨s, b, rfl, hb⟩ := h
  rw [List.getLast?_concat]
  intro hsome
  exact hb (Option.some.inj hsome)

theorem Json.IsValue.endsClosed {t : Text} {x : Json Literal} (h : IsValue t x) :
    Json.EndsClosed t := by
  cases h with
  | nullWord => exact ⟨utf8 "nul", 0x6C, by decide, by decide⟩
  | trueWord => exact ⟨utf8 "tru", 0x65, by decide, by decide⟩
  | falseWord => exact ⟨utf8 "fals", 0x65, by decide, by decide⟩
  | @number l hl =>
      have hne : l.text ≠ [] := by
        intro hnil
        obtain ⟨b, s, hs, -⟩ := (IsValue.number hl).head
        rw [hnil] at hs
        cases hs
      refine ⟨l.text.dropLast, l.text.getLast hne, (List.dropLast_append_getLast hne).symm, ?_⟩
      intro hbrace
      have hbyte := (hl.mem_text (List.getLast_mem hne)).2
      rw [hbrace] at hbyte
      exact absurd hbyte (by decide)
  | @string s ps hs => exact ⟨0x22 :: s, 0x22, rfl, by decide⟩
  | @noElements w hw => exact ⟨0x5B :: w, 0x5D, rfl, by decide⟩
  | @array s xs hs => exact ⟨0x5B :: s, 0x5D, rfl, by decide⟩
  | @noMembers w hw => exact ⟨0x7B :: w, 0x7D, rfl, by decide⟩
  | @object s ms hs => exact ⟨0x7B :: s, 0x7D, rfl, by decide⟩

theorem Json.IsSpelling.join {P : Text → Prop} (hP : Json.IsSpelling P) {b : UInt8}
    (hb : 0x20 ≤ b ∧ b < 0x80 ∧ b ≠ 0x5C) {ts : List Text} (h : ∀ t ∈ ts, P t) :
    P (Text.join [b] ts) := by
  induction ts with
  | nil => exact hP.nil
  | cons t ts ih =>
      obtain ⟨ht, hts⟩ := List.forall_mem_cons.mp h
      by_cases hnil : ts = []
      · subst hnil
        exact ht
      · rw [Text.join_cons _ _ hnil, List.append_assoc]
        exact hP.append ht (hP.mark hb (ih hts))

namespace Log

/-! ### Members -/

/-- All numbers in the data are finite. -/
def IsFinite (x : Detail) : Prop := ∀ n ∈ x.numbers, n.isFinite = true

instance (x : Detail) : Decidable (IsFinite x) :=
  inferInstanceAs (Decidable (∀ n ∈ x.numbers, n.isFinite = true))

namespace Value

def IsWritable : Value → Prop
  | text _ => True
  | data x => IsFinite x

/-- What a reader finds where the value is written. -/
def found : Value → Finding
  | text s => .string s.sanitize
  | data x => x.rendered Number.Numeral.literal

theorem isValue_toJson {v : Value} (h : v.IsWritable) : IsValue v.toJson v.found := by
  cases v with
  | text s =>
      obtain ⟨ps, hps, htext⟩ := Json.StringStyle.event.exists_isBody s
      have hvalue := IsValue.string hps
      rw [htext] at hvalue
      exact hvalue
  | data x =>
      apply Json.isValue_write
      intro n hn
      exact Number.Numeral.literal_spec (h n hn)

theorem isLine_toJson {v : Value} (h : v.IsWritable) : IsLine v.toJson := by
  cases v with
  | text s => exact Json.StringStyle.event.isLine_write s
  | data x =>
      apply Json.isLine_write
      intro n hn
      obtain ⟨hliteral, htext⟩ := Number.Numeral.literal_spec (h n hn)
      rw [htext]
      apply Json.isLine_ascii
      intro b hb
      obtain ⟨hlow, hhigh, -⟩ := hliteral.mem_text hb
      exact ⟨hlow, UInt8.lt_trans hhigh (by decide)⟩

end Value

namespace Member

def IsWritable (m : Member) : Prop := m.value.IsWritable

def found (m : Member) : Text × Finding := (m.key.sanitize, m.value.found)

theorem isMember_toJson {m : Member} (h : m.IsWritable) : IsMember m.toJson m.found :=
  Json.StringStyle.event.isMember_write m.key (Value.isValue_toJson h).isDocument

theorem isLine_toJson {m : Member} (h : m.IsWritable) : IsLine m.toJson :=
  (Json.StringStyle.event.isLine_write m.key).append ((Value.isLine_toJson h).mark (by decide))

theorem endsClosed_toJson {m : Member} (h : m.IsWritable) : Json.EndsClosed m.toJson :=
  ((Value.isValue_toJson h).endsClosed.append [0x3A]).append _

end Member

/-! ### Drafts -/

namespace Draft

/-- The draft of some members, with commas between them. -/
def ofMembers (ms : List Member) : Draft := 0x7B :: Text.join [0x2C] (ms.map Member.toJson)

theorem ofMembers_append {ms ns : List Member} (hms : ms ≠ []) (hns : ns ≠ []) :
    ofMembers (ms ++ ns) = ofMembers ms ++ 0x2C :: Text.join [0x2C] (ns.map Member.toJson) := by
  rw [ofMembers, ofMembers, List.map_append, Text.join_append]
  · rfl
  · simpa using hms
  · simpa using hns

theorem endsClosed_ofMembers {ms : List Member} (hms : ∀ m ∈ ms, m.IsWritable) (h : ms ≠ []) :
    Json.EndsClosed (ofMembers ms) := by
  obtain ⟨ns, n, rfl⟩ := (List.eq_nil_or_concat' ms).resolve_left h
  have hn := Member.endsClosed_toJson (hms n (by simp))
  by_cases hns : ns = []
  · subst hns
    exact hn.append [0x7B]
  · rw [ofMembers_append hns (List.cons_ne_nil n [])]
    exact (hn.append [0x2C]).append _

theorem add_ofMembers {ms : List Member} (hms : ∀ m ∈ ms, m.IsWritable) (m : Member) :
    (ofMembers ms).add m = ofMembers (ms ++ [m]) := by
  by_cases h : ms = []
  · subst h
    rfl
  · rw [add, if_neg (endsClosed_ofMembers hms h).getLast?_ne, ofMembers_append h (List.cons_ne_nil m []),
      List.append_assoc]
    rfl

theorem addAll_ofMembers {ms ns : List Member} (hms : ∀ m ∈ ms, m.IsWritable)
    (hns : ∀ m ∈ ns, m.IsWritable) : (ofMembers ms).addAll ns = ofMembers (ms ++ ns) := by
  induction ns generalizing ms with
  | nil => rw [List.append_nil]; rfl
  | cons n ns ih =>
      obtain ⟨hn, hns⟩ := List.forall_mem_cons.mp hns
      have hmore : ∀ m ∈ ms ++ [n], m.IsWritable :=
        List.forall_mem_append.mpr ⟨hms, List.forall_mem_singleton.mpr hn⟩
      change ((ofMembers ms).add n).addAll ns = _
      rw [add_ofMembers hms, ih hmore hns, List.append_assoc]
      rfl

theorem start_addAll {ms : List Member} (h : ∀ m ∈ ms, m.IsWritable) :
    start.addAll ms = ofMembers ms :=
  addAll_ofMembers (List.forall_mem_nil _) h

theorem length_ofMembers_le_one {ms : List Member} : (ofMembers ms).length ≤ 1 ↔ ms = [] := by
  constructor
  · intro h
    cases ms with
    | nil => rfl
    | cons m ms =>
        have hjoin : Text.join [0x2C] ((m :: ms).map Member.toJson) = [] := by
          simpa [ofMembers] using h
        cases ms <;> cases hjoin
  · rintro rfl
    exact Nat.le_refl 1

/-- Drafts meet as if their members had been added to one. -/
theorem splice_ofMembers (ms ns : List Member) :
    (ofMembers ms).splice (ofMembers ns) = ofMembers (ms ++ ns) := by
  by_cases hns : ns = []
  · subst hns
    rw [splice, if_pos (length_ofMembers_le_one.mpr rfl), List.append_nil]
  rw [splice, if_neg fun h => hns (length_ofMembers_le_one.mp h)]
  by_cases hms : ms = []
  · subst hms
    rfl
  · rw [if_neg fun h => hms (length_ofMembers_le_one.mp h), ofMembers_append hms hns, List.append_assoc]
    rfl

theorem isMembers_join (m : Member) (ms : List Member) (h : ∀ n ∈ m :: ms, n.IsWritable) :
    IsMembers (Text.join [0x2C] ((m :: ms).map Member.toJson)) ((m :: ms).map Member.found) := by
  induction ms generalizing m with
  | nil => exact .last (Member.isMember_toJson (h m List.mem_cons_self))
  | cons n ms ih =>
      obtain ⟨hm, hrest⟩ := List.forall_mem_cons.mp h
      have hmembers := IsMembers.cons (Member.isMember_toJson hm) (ih n hrest)
      simpa [Text.join] using hmembers

/-- The closed draft is an object with the members of the draft. -/
theorem isValue_ofMembers {ms : List Member} (h : ∀ m ∈ ms, m.IsWritable) :
    IsValue (ofMembers ms ++ [0x7D]) (.object (ms.map Member.found)) := by
  cases ms with
  | nil => exact .noMembers Json.blanks_nil
  | cons m ms => exact .object (isMembers_join m ms h)

theorem isDocument_close {ms : List Member} (h : ∀ m ∈ ms, m.IsWritable) :
    IsDocument (ofMembers ms).close (.object (ms.map Member.found)) := by
  have hbreak : Json.Blanks [0x0A] := List.forall_mem_singleton.mpr (.inr (.inr (.inl rfl)))
  have hdocument := IsDocument.mk Json.blanks_nil (isValue_ofMembers h) hbreak
  rwa [List.nil_append, List.append_assoc] at hdocument

theorem isLine_ofMembers {ms : List Member} (h : ∀ m ∈ ms, m.IsWritable) :
    IsLine (ofMembers ms ++ [0x7D]) := by
  have hbody : IsLine (Text.join [0x2C] (ms.map Member.toJson)) := by
    apply (Json.isSpelling_madeOf Json.includesLatin_line).join (by decide)
    intro t ht
    obtain ⟨m, hm, rfl⟩ := List.mem_map.mp ht
    exact Member.isLine_toJson (h m hm)
  exact (hbody.append (Json.isLine_ascii (List.forall_mem_singleton.mpr (by decide)))).mark (by decide)

end Draft

/-! ### Loggers -/

/-- What a derivation adds to every line. -/
def Derivation.members : Derivation → List Member
  | component name => [⟨componentKey, .text name⟩]
  | fields fs => Member.ofFields fs
  | error (some text) => [⟨errorKey, .text text⟩]
  | error none => []

namespace Logger

theorem derive_eq (l : Logger) (d : Derivation) :
    l.derive d = { l with context := l.context.addAll d.members } := by
  cases d with
  | component name => rfl
  | fields fs => rfl
  | error text => cases text <;> rfl

/-- A derivation changes nothing but the context, and so does a chain of them. -/
theorem deriveAll_eq (l : Logger) (chain : List Derivation) :
    l.deriveAll chain = { l with context := l.context.addAll (chain.flatMap Derivation.members) } := by
  induction chain generalizing l with
  | nil => rfl
  | cons d chain ih =>
      change (l.derive d).deriveAll chain = _
      rw [ih, derive_eq, List.flatMap_cons]
      simp [Draft.addAll]

/-- What derivations leave as it is may be changed before them or after. -/
theorem append_derived_map {f : Logger → Logger} (hf : ∀ l d, (f l).derive d = f (l.derive d))
    (loggers : List Logger) (action : Action) :
    loggers.map f ++ (action.derived (loggers.map f)).toList =
      (loggers ++ (action.derived loggers).toList).map f := by
  rw [List.map_append, ← Option.toList_map]
  cases action with
  | call of level message fields => rfl
  | derive of d =>
      rw [Action.derived, Action.derived, List.getElem?_map, Option.map_map, Option.map_map]
      congr 3
      funext l
      exact hf l d

theorem event_eq {l : Logger} {ms : List Member} (hcontext : l.context = Draft.ofMembers ms)
    (a : Ambient) (level : Level) (message : Text) (fields : List (Keyed Detail))
    (h : ∀ m ∈ levelMember level ++ ms ++ l.callMembers a message fields, m.IsWritable) :
    l.event a level message fields =
      (Draft.ofMembers (levelMember level ++ ms ++ l.callMembers a message fields)).close := by
  obtain ⟨hbefore, hcall⟩ := List.forall_mem_append.mp h
  obtain ⟨hlevel, hms⟩ := List.forall_mem_append.mp hbefore
  rw [event, hcontext, Draft.start_addAll hlevel, Draft.splice_ofMembers,
    Draft.addAll_ofMembers hbefore hcall]

end Logger

/-! ### Lines of JSON -/

def IsFiniteFields (fs : Keyed Detail) : Prop := ∀ e ∈ fs, IsFinite e.2

instance (fs : Keyed Detail) : Decidable (IsFiniteFields fs) :=
  inferInstanceAs (Decidable (∀ e ∈ fs, IsFinite e.2))

def foundFields (fs : Keyed Detail) : List (Text × Finding) :=
  fs.map fun e => (e.1.sanitize, e.2.rendered Number.Numeral.literal)

theorem Member.isWritable_ofFields {fs : Keyed Detail} (h : IsFiniteFields fs) :
    ∀ m ∈ ofFields fs, m.IsWritable := by
  intro m hm
  obtain ⟨e, he, rfl⟩ := List.mem_map.mp hm
  exact h e he

theorem Member.found_ofFields (fs : Keyed Detail) : (ofFields fs).map found = foundFields fs := by
  rw [ofFields, List.map_map]
  rfl

/-- The names that the program gives to members. -/
def ownKeys : List Text := [levelKey, componentKey, errorKey, timeKey, callerKey, messageKey]

theorem sanitize_of_mem_ownKeys : ∀ k ∈ ownKeys, k.sanitize = k := by decide

theorem Member.found_text (key : Text) (hkey : key ∈ ownKeys) (text : Text) :
    found ⟨key, .text text⟩ = (key, .string text.sanitize) := by
  rw [found, sanitize_of_mem_ownKeys key hkey]
  rfl

namespace Derivation

def IsFinite : Derivation → Prop
  | fields fs => IsFiniteFields fs
  | _ => True

instance : DecidablePred IsFinite
  | fields fs => inferInstanceAs (Decidable (IsFiniteFields fs))
  | component _ => .isTrue trivial
  | error _ => .isTrue trivial

/-- What a reader finds of a derivation in every line. -/
def found : Derivation → List (Text × Finding)
  | component name => [(componentKey, .string name.sanitize)]
  | fields fs => foundFields fs
  | error (some text) => [(errorKey, .string text.sanitize)]
  | error none => []

theorem isWritable_members {d : Derivation} (h : d.IsFinite) : ∀ m ∈ d.members, m.IsWritable := by
  cases d with
  | component name => exact List.forall_mem_singleton.mpr trivial
  | fields fs => exact Member.isWritable_ofFields h
  | error text =>
      cases text with
      | some text => exact List.forall_mem_singleton.mpr trivial
      | none => exact List.forall_mem_nil _

theorem found_members (d : Derivation) : d.members.map Member.found = d.found := by
  cases d with
  | component name => exact congrArg (· :: []) (Member.found_text _ (by simp [ownKeys]) name)
  | fields fs => exact Member.found_ofFields fs
  | error text =>
      cases text with
      | some text => exact congrArg (· :: []) (Member.found_text _ (by simp [ownKeys]) text)
      | none => rfl

end Derivation

/-- What a reader finds in the line of a call: the level, the component, what each derivation adds, the
fields of the call, the time, the place and the message. Fields come in the order of their lists. -/
def lineMembers (c : Config) (component : Text) (chain : List Derivation) (a : Ambient) (level : Level)
    (message : Text) (fields : List (Keyed Detail)) : List (Text × Finding) :=
  (levelKey, .string level.name)
    :: (if component.isEmpty then [] else [(componentKey, .string component.sanitize)])
    ++ chain.flatMap Derivation.found
    ++ fields.flatMap foundFields
    ++ (if c.timestamp then [(timeKey, .string { a.now with nanosecond := 0 }.jsonText.sanitize)] else [])
    ++ (if c.caller then [(callerKey, .string a.caller.sanitize)] else [])
    ++ (if message.isEmpty then [] else [(messageKey, .string message.sanitize)])

namespace Logger

def componentMembers (component : Text) : List Member :=
  if component.isEmpty then [] else [⟨componentKey, .text component⟩]

theorem isWritable_optional {p : Prop} [Decidable p] (key text : Text) :
    ∀ m ∈ (if p then [] else [⟨key, .text text⟩] : List Member), m.IsWritable := by
  intro m hm
  split at hm
  · cases hm
  · rw [List.mem_singleton.mp hm]
    trivial

theorem isWritable_wanted {p : Prop} [Decidable p] (key text : Text) :
    ∀ m ∈ (if p then [⟨key, .text text⟩] else [] : List Member), m.IsWritable := by
  rw [← ite_not]
  exact isWritable_optional key text

theorem isWritable_messageMember (message : Text) : ∀ m ∈ messageMember message, m.IsWritable :=
  isWritable_optional messageKey message

theorem found_messageMember (message : Text) :
    (messageMember message).map Member.found =
      if message.isEmpty then [] else [(messageKey, .string message.sanitize)] := by
  rw [messageMember, apply_ite (List.map Member.found), List.map_nil, List.map_singleton,
    Member.found_text messageKey (by simp [ownKeys])]

theorem isWritable_flatMap {chain : List Derivation} (h : ∀ d ∈ chain, d.IsFinite) :
    ∀ m ∈ chain.flatMap Derivation.members, m.IsWritable := by
  intro m hm
  obtain ⟨d, hd, hm⟩ := List.mem_flatMap.mp hm
  exact Derivation.isWritable_members (h d hd) m hm

/-- The context of a logger that was derived by a chain. -/
theorem context_deriveAll (c : Config) (component : Text) (stream : Stream) {chain : List Derivation}
    (hchain : ∀ d ∈ chain, d.IsFinite) :
    ((ofConfig c component stream).deriveAll chain).context =
      Draft.ofMembers (componentMembers component ++ chain.flatMap Derivation.members) := by
  have hcomponent : ∀ m ∈ componentMembers component, m.IsWritable := isWritable_optional _ _
  have hstart : (ofConfig c component stream).context = Draft.ofMembers (componentMembers component) :=
    Draft.start_addAll hcomponent
  rw [deriveAll_eq]
  change (ofConfig c component stream).context.addAll _ = _
  rw [hstart, Draft.addAll_ofMembers hcomponent (isWritable_flatMap hchain)]

theorem isWritable_callMembers (l : Logger) (a : Ambient) (message : Text) {fields : List (Keyed Detail)}
    (hfields : ∀ fs ∈ fields, IsFiniteFields fs) :
    ∀ m ∈ l.callMembers a message fields, m.IsWritable := by
  have hmaps : ∀ m ∈ fields.flatMap Member.ofFields, m.IsWritable := by
    intro m hm
    obtain ⟨fs, hfs, hm⟩ := List.mem_flatMap.mp hm
    exact Member.isWritable_ofFields (hfields fs hfs) m hm
  simp only [callMembers, List.forall_mem_append]
  exact ⟨⟨⟨hmaps, isWritable_wanted _ _⟩, isWritable_wanted _ _⟩, isWritable_messageMember message⟩

theorem found_callMembers (l : Logger) (a : Ambient) (message : Text) (fields : List (Keyed Detail)) :
    (l.callMembers a message fields).map Member.found =
      fields.flatMap foundFields
        ++ (if l.timestamp then [(timeKey, .string { a.now with nanosecond := 0 }.jsonText.sanitize)]
          else [])
        ++ (if l.caller then [(callerKey, .string a.caller.sanitize)] else [])
        ++ (if message.isEmpty then [] else [(messageKey, .string message.sanitize)]) := by
  have hmaps : (fields.flatMap Member.ofFields).map Member.found = fields.flatMap foundFields := by
    rw [List.map_flatMap]
    simp only [Member.found_ofFields]
  have htime := Member.found_text timeKey (by simp [ownKeys])
  have hcaller := Member.found_text callerKey (by simp [ownKeys])
  simp only [callMembers, List.map_append, hmaps, apply_ite (List.map Member.found), List.map_cons,
    List.map_nil, htime, hcaller, found_messageMember]

theorem found_levelMember {level : Level}
    (h : level ∈ [Level.debug, Level.info, Level.warn, Level.error]) :
    (levelMember level).map Member.found = [(levelKey, .string level.name)] := by
  have hnamed : ∀ level ∈ [Level.debug, Level.info, Level.warn, Level.error],
      level ≠ Level.unlevelled ∧ level.name.sanitize = level.name := by decide
  obtain ⟨hne, hname⟩ := hnamed level h
  rw [levelMember, if_neg hne, List.map_singleton, Member.found_text _ (by simp [ownKeys]), hname]

/-- A call that passes the filters of its logger and of the program writes its event. -/
theorem log_eq_deliver {l : Logger} {a : Ambient} {level : Level}
    (hlevel : level ∈ [Level.debug, Level.info, Level.warn, Level.error]) (hlogger : l.level ≤ level)
    (hleast : a.leastLevel ≤ level) (message : Text) (fields : List (Keyed Detail)) :
    l.log a level message fields = some (l.deliver a (l.event a level message fields)) := by
  have hdisabled : level ≠ Level.disabled := by
    rintro rfl
    exact absurd hlevel (by decide)
  have hpasses : (l.enabled a level && level != Level.disabled) = true := by
    simp [enabled, hlogger, hleast, hdisabled]
  rw [log, if_pos hpasses]

theorem log_of_json {l : Logger} {a : Ambient} {level : Level} (hform : l.form = .json)
    (hlevel : level ∈ [Level.debug, Level.info, Level.warn, Level.error]) (hlogger : l.level ≤ level)
    (hleast : a.leastLevel ≤ level) (message : Text) (fields : List (Keyed Detail)) :
    l.log a level message fields = some ⟨l.stream, l.event a level message fields⟩ := by
  rw [log_eq_deliver hlevel hlogger hleast, deliver, hform]

/-- All members of the line of a call. -/
def recordOf (c : Config) (component : Text) (stream : Stream) (chain : List Derivation) (a : Ambient)
    (level : Level) (message : Text) (fields : List (Keyed Detail)) : List Member :=
  levelMember level ++ (componentMembers component ++ chain.flatMap Derivation.members)
    ++ (ofConfig c component stream).callMembers a message fields

theorem isWritable_recordOf (c : Config) (component : Text) (stream : Stream) {chain : List Derivation}
    (a : Ambient) (level : Level) (message : Text) {fields : List (Keyed Detail)}
    (hchain : ∀ d ∈ chain, d.IsFinite) (hfields : ∀ fs ∈ fields, IsFiniteFields fs) :
    ∀ m ∈ recordOf c component stream chain a level message fields, m.IsWritable := by
  simp only [recordOf, List.forall_mem_append]
  exact ⟨⟨isWritable_optional _ _, isWritable_optional _ _, isWritable_flatMap hchain⟩,
    isWritable_callMembers _ a message hfields⟩

theorem found_recordOf (c : Config) (component : Text) (stream : Stream) (chain : List Derivation)
    (a : Ambient) {level : Level} (hlevel : level ∈ [Level.debug, Level.info, Level.warn, Level.error])
    (message : Text) (fields : List (Keyed Detail)) :
    (recordOf c component stream chain a level message fields).map Member.found =
      lineMembers c component chain a level message fields := by
  have hcomponent := Member.found_text componentKey (by simp [ownKeys])
  have hchain : (chain.flatMap Derivation.members).map Member.found = chain.flatMap Derivation.found := by
    rw [List.map_flatMap]
    simp only [Derivation.found_members]
  simp only [recordOf, componentMembers, List.map_append, found_levelMember hlevel, found_callMembers,
    hchain, apply_ite (List.map Member.found), List.map_cons, List.map_nil, hcomponent, lineMembers]
  simp [ofConfig]

/-- The event of a call of a logger that was derived by a chain. -/
theorem event_deriveAll (c : Config) (component : Text) (stream : Stream) {chain : List Derivation}
    (a : Ambient) (level : Level) (message : Text) {fields : List (Keyed Detail)}
    (hchain : ∀ d ∈ chain, d.IsFinite) (hfields : ∀ fs ∈ fields, IsFiniteFields fs) :
    ((ofConfig c component stream).deriveAll chain).event a level message fields =
      (Draft.ofMembers (recordOf c component stream chain a level message fields)).close := by
  have hmembers : ((ofConfig c component stream).deriveAll chain).callMembers a message fields =
      (ofConfig c component stream).callMembers a message fields := by
    rw [deriveAll_eq]
    rfl
  have hwritable := isWritable_recordOf c component stream a level message hchain hfields
  rw [recordOf, ← hmembers] at hwritable
  rw [event_eq (context_deriveAll c component stream hchain) a level message fields hwritable, hmembers]
  rfl

/-- The line of a call of a logger for JSON cannot be forged or split. It is one line, and whatever the
texts of the call and of the chain that led to the logger hold, a reader finds one object in it, which
has the members of the call and of the chain and no others. -/
theorem log_json_members (c : Config) (component : Text) (stream : Stream) (chain : List Derivation)
    (a : Ambient) (level : Level) (message : Text) (fields : List (Keyed Detail))
    (hformat : c.isConsole = false)
    (hlevel : level ∈ [Level.debug, Level.info, Level.warn, Level.error])
    (hlogger : Level.configured c.level ≤ level) (hleast : a.leastLevel ≤ level)
    (hchain : ∀ d ∈ chain, d.IsFinite) (hfields : ∀ fs ∈ fields, IsFiniteFields fs) :
    ∃ body, ((ofConfig c component stream).deriveAll chain).log a level message fields =
        some ⟨stream, body ++ [0x0A]⟩ ∧ 0x0A ∉ body ∧
      (∀ x, IsDocument (body ++ [0x0A]) x ↔
        x = .object (lineMembers c component chain a level message fields)) ∧
      ((Json.object (lineMembers c component chain a level message fields)).depth ≤ Json.maxDepth →
        Json.read (body ++ [0x0A]) =
          .ok (.object (lineMembers c component chain a level message fields))) := by
  have hwritable := isWritable_recordOf c component stream a level message hchain hfields
  have hdocument := Draft.isDocument_close hwritable
  rw [found_recordOf c component stream chain a hlevel message fields] at hdocument
  have hevent := event_eq (context_deriveAll c component stream hchain) a level message fields
    (by rw [deriveAll_eq]; exact hwritable)
  have hwritten := log_of_json (l := (ofConfig c component stream).deriveAll chain) (a := a)
    (by rw [deriveAll_eq, ofConfig, hformat]; rfl) hlevel (by rw [deriveAll_eq]; exact hlogger) hleast
    message fields
  rw [hevent] at hwritten
  refine ⟨Draft.ofMembers (recordOf c component stream chain a level message fields) ++ [0x7D], ?_,
    (Draft.isLine_ofMembers hwritable).not_mem, ?_, ?_⟩
  · rw [hwritten, deriveAll_eq, List.append_assoc (Draft.ofMembers _)]
    rfl
  · intro x
    rw [List.append_assoc]
    constructor
    · intro hx
      exact hx.unique hdocument
    · rintro rfl
      exact hdocument
  · intro hdepth
    rw [List.append_assoc]
    exact Json.read_ok_iff.mpr ⟨hdocument, hdepth⟩

/-- Keys, texts and an error that would end the line or add members to it. -/
def hostileChain : List Derivation :=
  [.component (utf8 "a\",\"level\":\"error"), .error none,
    .fields [(utf8 "message", .array [.null, .number (.int (-7)), .object [([0xFF], .string [0x0A])]])],
    .error (some (utf8 "\x7d\n\x7b" ++ [0xE2, 0x82]))]

theorem log_json_members_hostile :
    ∃ body, ((ofConfig { level := utf8 "warn", format := utf8 "json", caller := true } (utf8 "cli")
        (.writer 3)).deriveAll hostileChain).log
          { leastLevel := Level.warn, now := { year := 2024, month := 1, day := 1 }, caller := [0x22] }
          Level.warn (utf8 "\\\r\n") [[], [(utf8 "", .bool true)]] =
        some ⟨.writer 3, body ++ [0x0A]⟩ ∧ 0x0A ∉ body ∧
      Json.read (body ++ [0x0A]) = .ok (.object [
        (utf8 "level", .string (utf8 "warn")),
        (utf8 "component", .string (utf8 "cli")),
        (utf8 "component", .string (utf8 "a\",\"level\":\"error")),
        (utf8 "message", .array [.null, .number ⟨true, [0x37], none, none⟩,
          .object [(utf8 "\uFFFD", .string [0x0A])]]),
        (utf8 "error", .string (utf8 "\x7d\n\x7b\uFFFD\uFFFD")),
        (utf8 "", .bool true),
        (utf8 "caller", .string [0x22]),
        (utf8 "message", .string (utf8 "\\\r\n"))]) := by
  obtain ⟨body, hlog, hline, -, hread⟩ := log_json_members
    { level := utf8 "warn", format := utf8 "json", caller := true } (utf8 "cli") (.writer 3) hostileChain
    { leastLevel := Level.warn, now := { year := 2024, month := 1, day := 1 }, caller := [0x22] }
    Level.warn (utf8 "\\\r\n") [[], [(utf8 "", .bool true)]] (by decide +kernel) (by decide)
    (by decide +kernel) (by decide) (by decide +kernel) (by decide +kernel)
  refine ⟨body, hlog, hline, (hread (by decide +kernel)).trans (congrArg (Except.ok ∘ Json.object) ?_)⟩
  rfl

end Logger

end Log

end ServiceKit
