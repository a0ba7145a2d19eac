import Mathlib
import ServiceKit.Config.Decode
import ServiceKit.Proofs.Config.Keys

/-!
The fields of a configuration, and what decoding does to each of them: a field without a setting
keeps its value, and one with a setting has the value that the setting is converted to.
-/

namespace ServiceKit.Config

open Setting Text

inductive Field where
  | name
  | environment
  | debug
  | level
  | format
  | output
  | noColor
  | timestamp
  | caller
  | label
  | trim
  | lowercase
deriving DecidableEq, Repr

inductive FieldValue where
  | text (s : Text)
  | flag (b : Bool)
  | label (s : Option Text)
deriving DecidableEq, Repr

namespace Field

def word : Field → String
  | name => "name"
  | environment => "environment"
  | debug => "debug"
  | level => "level"
  | format => "format"
  | output => "output"
  | noColor => "no_color"
  | timestamp => "timestamp"
  | caller => "caller"
  | label => "prefix"
  | trim => "trim"
  | lowercase => "lowercase"

/-- The group that a field belongs to. -/
def group? : Field → Option String
  | name | environment | debug => none
  | level | format | output | noColor | timestamp | caller | label => some "logging"
  | trim | lowercase => some "format"

/-- The parts of a field's key. -/
def path (f : Field) : List Text := (f.group?.toList ++ [f.word]).map utf8

def key (f : Field) : Text := Text.join [0x2E] f.path

def get (c : ServiceConfig) : Field → FieldValue
  | name => .text c.name
  | environment => .text c.environment
  | debug => .flag c.debug
  | level => .text c.logging.level
  | format => .text c.logging.format
  | output => .text c.logging.output
  | noColor => .flag c.logging.noColor
  | timestamp => .flag c.logging.timestamp
  | caller => .flag c.logging.caller
  | label => .label c.logging.label
  | trim => .flag c.format.trim
  | lowercase => .flag c.format.lowercase

end Field

/-- A setting as true or false. -/
def flagOf? : Setting → Option Bool
  | .bool b => some b
  | .int i => some (i != 0)
  | .float x => some !x.isZero
  | .string [] => some false
  | .string s => Number.boolOf? s
  | _ => none

/-- The value that a setting gives to a field, if it fits. -/
def Field.decode? : Field → Setting → Option FieldValue
  | debug, v | noColor, v | timestamp, v | caller, v | trim, v | lowercase, v =>
    (flagOf? v).map .flag
  | label, v => (textOf? v).map fun s => .label (some s)
  | _, v => (textOf? v).map .text

/-! ### One field -/

/-- Did decoding leave a field alone for want of a setting, or give it what the setting converts to? -/
def Settled {α : Type} (convert? : Setting → Option α) (now : α) (o : Option Setting) (x : α) : Prop :=
  match o with
  | none => x = now
  | some v => convert? v = some x

theorem settle_ok {α : Type} {now x : α} {r : Except Mismatch (Option α)}
    (h : settle now r = (x, [])) : ∃ o, r = .ok o ∧ x = o.getD now := by
  cases r with
  | error m => cases h
  | ok o =>
      refine ⟨o, rfl, ?_⟩
      cases o with
      | none => exact (congrArg Prod.fst h).symm
      | some v => exact (congrArg Prod.fst h).symm

theorem decodeText_ok {key name : String} {t : Tree} {o : Option Text}
    (h : decodeText key name t = .ok o) (now : Text) :
    Settled textOf? now (Tree.given? (fieldSetting? (utf8 name) t)) (o.getD now) ∧
      o.isSome = (Tree.given? (fieldSetting? (utf8 name) t)).isSome := by
  unfold decodeText at h
  split at h
  · rename_i hg
    rw [hg]
    cases h
    exact ⟨rfl, rfl⟩
  · rename_i v hg
    rw [hg]
    split at h
    · rename_i s hs
      cases h
      exact ⟨hs, rfl⟩
    · cases h

theorem settle_text {key name : String} {now x : Text} {t : Tree}
    (h : settle now (decodeText key name t) = (x, [])) :
    Settled textOf? now (Tree.given? (fieldSetting? (utf8 name) t)) x := by
  obtain ⟨o, ho, rfl⟩ := settle_ok h
  exact (decodeText_ok ho now).1

theorem settle_label {key name : String} {now x : Option Text} {t : Tree}
    (h : (match decodeText key name t with
      | .ok (some s) => (some s, [])
      | .ok none => (now, [])
      | .error m => (now, [m])) = (x, ([] : List Mismatch))) :
    Settled (fun v => (textOf? v).map some) now (Tree.given? (fieldSetting? (utf8 name) t)) x := by
  split at h
  · rename_i s hs
    obtain ⟨hsettled, hsome⟩ := decodeText_ok hs []
    obtain ⟨v, hv⟩ := Option.isSome_iff_exists.mp hsome.symm
    rw [hv] at hsettled ⊢
    exact (congrArg (Option.map some) hsettled).trans (congrArg some (congrArg Prod.fst h))
  · rename_i hs
    have hnone := Option.isSome_eq_false_iff.mp (decodeText_ok hs []).2.symm
    rw [Option.isNone_iff_eq_none.mp hnone]
    exact (congrArg Prod.fst h).symm
  · cases h

theorem boolOf?_nil : Number.boolOf? [] = none := by decide

theorem settle_flag {key name : String} {now was x : Bool} {t : Tree}
    (h : settle now (decodeFlag key name was t) = (x, [])) :
    Settled flagOf? now (Tree.given? (fieldSetting? (utf8 name) t)) x := by
  unfold decodeFlag at h
  split at h
  case h_1 hg =>
    rw [hg]
    exact (congrArg Prod.fst h).symm
  case h_5 s hg =>
    rw [hg]
    cases s with
    | nil =>
        rw [boolOf?_nil] at h
        exact congrArg some (congrArg Prod.fst h)
    | cons b s =>
        split at h
        · rename_i b' hb
          exact hb.trans (congrArg some (congrArg Prod.fst h))
        · cases h
  case h_6 => cases h
  all_goals
    rename_i hg
    rw [hg]
    exact congrArg some (congrArg Prod.fst h)

/-! ### Groups -/

theorem decodeLogging_ok {c c' : Log.Config} {t : Tree} (h : decodeLogging c t = (c', [])) :
    settle c.level (decodeText "logging.level" "level" t) = (c'.level, []) ∧
    settle c.format (decodeText "logging.format" "format" t) = (c'.format, []) ∧
    settle c.output (decodeText "logging.output" "output" t) = (c'.output, []) ∧
    settle c.noColor (decodeFlag "logging.no_color" "no_color" c.noColor t) = (c'.noColor, []) ∧
    settle c.timestamp (decodeFlag "logging.timestamp" "timestamp" c.timestamp t) =
      (c'.timestamp, []) ∧
    settle c.caller (decodeFlag "logging.caller" "caller" c.caller t) = (c'.caller, []) ∧
    (match decodeText "logging.prefix" "prefix" t with
      | .ok (some s) => (some s, [])
      | .ok none => (c.label, [])
      | .error m => (c.label, [m])) = (c'.label, ([] : List Mismatch)) := by
  obtain ⟨h1, h2⟩ := Prod.mk.inj h
  simp only [List.append_eq_nil_iff] at h2
  obtain ⟨⟨⟨⟨⟨⟨e1, e2⟩, e3⟩, e4⟩, e5⟩, e6⟩, e7⟩ := h2
  subst h1
  exact ⟨Prod.ext rfl e1, Prod.ext rfl e2, Prod.ext rfl e3, Prod.ext rfl e4, Prod.ext rfl e5,
    Prod.ext rfl e6, Prod.ext rfl e7⟩

theorem decodeFormat_ok {o o' : FormatOptions} {t : Tree} (h : decodeFormat o t = (o', [])) :
    settle o.trim (decodeFlag "format.trim" "trim" o.trim t) = (o'.trim, []) ∧
    settle o.lowercase (decodeFlag "format.lowercase" "lowercase" o.lowercase t) =
      (o'.lowercase, []) := by
  obtain ⟨h1, h2⟩ := Prod.mk.inj h
  obtain ⟨e1, e2⟩ := List.append_eq_nil_iff.mp h2
  subst h1
  exact ⟨Prod.ext rfl e1, Prod.ext rfl e2⟩

theorem decodeService_ok {c c' : ServiceConfig} {t : Tree} (h : decodeService c t = (c', [])) :
    settle c.name (decodeText "name" "name" t) = (c'.name, []) ∧
    settle c.environment (decodeText "environment" "environment" t) = (c'.environment, []) ∧
    settle c.debug (decodeFlag "debug" "debug" c.debug t) = (c'.debug, []) ∧
    settleGroup c.logging decodeLogging (decodeGroup "logging" t) = (c'.logging, []) ∧
    settleGroup c.format decodeFormat (decodeGroup "format" t) = (c'.format, []) := by
  obtain ⟨h1, h2⟩ := Prod.mk.inj h
  simp only [List.append_eq_nil_iff] at h2
  obtain ⟨⟨⟨⟨e1, e2⟩, e3⟩, e4⟩, e5⟩ := h2
  subst h1
  exact ⟨Prod.ext rfl e1, Prod.ext rfl e2, Prod.ext rfl e3, Prod.ext rfl e4, Prod.ext rfl e5⟩

/-- Where no other spelling of a field's name is among the keys, the name itself decides. -/
theorem fieldSetting?_eq_find? {name : Text} {t : Tree}
    (h : ∀ e ∈ t, sameLetters e.1 name = true → e.1 = name) :
    fieldSetting? name t = Keyed.find? name t := by
  unfold fieldSetting?
  split
  · rename_i v hv
    exact hv.symm
  · rename_i hnone
    have hfind : List.find? (fun e => sameLetters e.1 name) t = none :=
      List.find?_eq_none.mpr fun e he hsame => Keyed.find?_eq_none.mp hnone e he (h e he hsame)
    rw [hfind, hnone]
    rfl

theorem fieldSetting?_of_plain {name : Text} (hname : isPlainLower name = true) {t : Tree}
    (ht : everyEntry Tree.isPlainKey t = true) : fieldSetting? name t = Keyed.find? name t := by
  refine fieldSetting?_eq_find? fun e he hsame => ?_
  have hplain := Tree.isPlainLower_of_isPlainKey (everyEntry_iff.mp ht e he).1
  exact eq_of_sameLetters (lower_of_isPlainLower hplain) hname (.inr (ascii_of_isPlainLower hplain))
    hsame

/-- The long s is the only letter in lower case that a field's name may have for another one. -/
theorem fieldSetting?_of_lower {name : Text} (hname : isPlainLower name = true) (hlong : 0x73 ∉ name)
    {t : Tree} (ht : everyEntry Tree.isLowerKey t = true) :
    fieldSetting? name t = Keyed.find? name t := by
  refine fieldSetting?_eq_find? fun e he hsame => ?_
  have hlower := Tree.lower_of_isLowerKey (everyEntry_iff.mp ht e he).1
  exact eq_of_sameLetters hlower hname (.inl hlong) hsame

/-- A group is decoded from its level, and no text stands in its place. -/
theorem settleGroup_of_find? {α : Type} {decode : α → Tree → α × List Mismatch} {name : String}
    {now x : α} {f : Text → Bool} {t : Tree} (ht : everyEntry f t = true)
    (hfind : fieldSetting? (utf8 name) t = Keyed.find? (utf8 name) t)
    (h : settleGroup now decode (decodeGroup name t) = (x, [])) :
    (∀ s, Keyed.find? (utf8 name) t ≠ some (.string s)) ∧
      decode now (Tree.below (Keyed.find? (utf8 name) t)) = (x, []) := by
  unfold decodeGroup at h
  rw [hfind] at h
  cases hv : Keyed.find? (utf8 name) t with
  | none =>
      rw [hv] at h
      exact ⟨fun s hs => (nomatch hs), h⟩
  | some v =>
      have hkeys := Tree.everyKey_of_find? ht hv
      rw [hv] at h
      cases v with
      | null | time _ | map _ => exact ⟨fun s hs => (nomatch hs), h⟩
      | table entries => cases hkeys
      | _ => cases h

theorem settleGroup_ok {α : Type} {decode : α → Tree → α × List Mismatch} {name : String} {now x : α}
    (hname : isPlainLower (utf8 name) = true) {t : Tree} (ht : everyEntry Tree.isPlainKey t = true)
    (h : settleGroup now decode (decodeGroup name t) = (x, [])) :
    decode now (Tree.below (Keyed.find? (utf8 name) t)) = (x, []) :=
  (settleGroup_of_find? ht (fieldSetting?_of_plain hname ht) h).2

theorem Settled.map {α β : Type} {convert? : Setting → Option α} {now x : α} {o : Option Setting}
    (h : Settled convert? now o x) (g : α → β) :
    Settled (fun v => (convert? v).map g) (g now) o (g x) := by
  cases o with
  | none => exact congrArg g h
  | some v => exact congrArg (Option.map g) h

/-- A configuration that is decoded without a mismatch has in each field what the field's setting
converts to, and what it had before where there is no setting. -/
theorem decodeService_field {c c' : ServiceConfig} {t : Tree}
    (ht : everyEntry Tree.isPlainKey t = true) (h : decodeService c t = (c', [])) (f : Field) :
    Settled f.decode? (f.get c) (Tree.given? (Tree.look f.path t)) (f.get c') := by
  obtain ⟨hname, henvironment, hdebug, hlogging, hformat⟩ := decodeService_ok h
  have hl := settleGroup_ok (by decide) ht hlogging
  have hf := settleGroup_ok (by decide) ht hformat
  obtain ⟨l1, l2, l3, l4, l5, l6, l7⟩ := decodeLogging_ok hl
  obtain ⟨f1, f2⟩ := decodeFormat_ok hf
  have htop : ∀ w : String, isPlainLower (utf8 w) = true →
      fieldSetting? (utf8 w) t = Tree.look [utf8 w] t := fun w hw => fieldSetting?_of_plain hw ht
  have hin : ∀ g w : String, isPlainLower (utf8 w) = true →
      fieldSetting? (utf8 w) (Tree.below (Keyed.find? (utf8 g) t)) =
        Tree.look [utf8 g, utf8 w] t := fun g w hw =>
    fieldSetting?_of_plain hw (Tree.everyEntry_below ht)
  cases f with
  | name => exact htop "name" (by decide) ▸ (settle_text hname).map FieldValue.text
  | environment =>
      exact htop "environment" (by decide) ▸ (settle_text henvironment).map FieldValue.text
  | debug => exact htop "debug" (by decide) ▸ (settle_flag hdebug).map FieldValue.flag
  | level => exact hin "logging" "level" (by decide) ▸ (settle_text l1).map FieldValue.text
  | format => exact hin "logging" "format" (by decide) ▸ (settle_text l2).map FieldValue.text
  | output => exact hin "logging" "output" (by decide) ▸ (settle_text l3).map FieldValue.text
  | noColor => exact hin "logging" "no_color" (by decide) ▸ (settle_flag l4).map FieldValue.flag
  | timestamp => exact hin "logging" "timestamp" (by decide) ▸ (settle_flag l5).map FieldValue.flag
  | caller => exact hin "logging" "caller" (by decide) ▸ (settle_flag l6).map FieldValue.flag
  | label =>
      have hlabel := (settle_label l7).map FieldValue.label
      simp only [Option.map_map] at hlabel
      exact hin "logging" "prefix" (by decide) ▸ hlabel
  | trim => exact hin "format" "trim" (by decide) ▸ (settle_flag f1).map FieldValue.flag
  | lowercase => exact hin "format" "lowercase" (by decide) ▸ (settle_flag f2).map FieldValue.flag

end ServiceKit.Config
