import Mathlib
import ServiceKit.Proofs.Json.Strings
import ServiceKit.Proofs.Log.Events
import ServiceKit.Proofs.Text.Case

/-!
What a line for people shows. The escape character, which starts the sequences that set colours, gets
into a line by colours alone: texts without it are put into an event, read from it again and set as parts
and fields without it.
-/

namespace ServiceKit

open Json (IsLine IsSpelling isLine_ascii isLine_of_all LacksEscape)

/-! ### Quoted texts -/

namespace Text

section

variable {q : Char → Prop} (hq : IncludesLatin q)

include hq

theorem madeOf_digitsUpTo {base : Nat} (hbase : 0 < base ∧ base ≤ 16) (fuel n : Nat) :
    MadeOf q (Number.digitsUpTo base fuel n) := by
  have hdigit : ∀ d < 16, 0x20 ≤ Number.digit d ∧ Number.digit d < 0x80 := by decide
  have hone (d : Nat) (hd : d < 16) : MadeOf q [Number.digit d] := MadeOf.nil.mark hq (hdigit d hd)
  have hmod : n % base < 16 := Nat.lt_of_lt_of_le (Nat.mod_lt n hbase.1) hbase.2
  induction fuel generalizing n with
  | zero => exact hone _ hmod
  | succ fuel ih =>
      rw [Number.digitsUpTo]
      split
      · exact hone n (by omega)
      · have hrest : n / base % base < 16 := Nat.lt_of_lt_of_le (Nat.mod_lt _ hbase.1) hbase.2
        exact (ih (n / base) hrest).append (hone _ hmod)

theorem madeOf_hexEscape {marker : UInt8} (h : 0x20 ≤ marker ∧ marker < 0x80) (width n : Nat) :
    MadeOf q (hexEscape marker width n) := by
  have hzeros (k : Nat) : MadeOf q (List.replicate k 0x30) := by
    refine .ascii hq fun b hb => ?_
    rw [List.eq_of_mem_replicate hb]
    decide
  exact (((hzeros _).append (madeOf_digitsUpTo hq (by decide) n n)).mark hq h).mark hq (by decide)

end

theorem le_of_isPrintable {c : Char} (h : isPrintable c = true) : 0x20 ≤ c.toNat := by
  unfold isPrintable at h
  simp only at h
  split at h
  · exact of_decide_eq_true h
  · omega

theorem controlLetter?_ascii {n : Nat} {l : UInt8} (h : controlLetter? n = some l) :
    0x20 ≤ l ∧ l < 0x80 := by
  unfold controlLetter? at h
  split at h <;> cases h <;> decide

section

variable {q : Char → Prop} (hq : IncludesLatin q)

include hq

theorem madeOf_escapedChar {quote : UInt8} (hquote : 0x20 ≤ quote ∧ quote < 0x80) {c : Char}
    (hc : 0x20 ≤ c.toNat → q c) : MadeOf q (escapedChar quote c) := by
  have hletter {l : UInt8} (hl : 0x20 ≤ l ∧ l < 0x80) : MadeOf q [0x5C, l] :=
    (MadeOf.nil.mark hq hl).mark hq (by decide)
  rw [escapedChar]
  split
  · rename_i h
    refine hletter ?_
    rcases h with h | h
    · rw [h, UInt8.ofNat_toNat]
      exact hquote
    · rw [h]
      decide
  split
  · exact .char (hc (le_of_isPrintable ‹_›))
  split
  · exact hletter (controlLetter?_ascii ‹_›)
  split
  · exact madeOf_hexEscape hq (by decide) 2 _
  split
  · exact madeOf_hexEscape hq (by decide) 4 _
  · exact madeOf_hexEscape hq (by decide) 8 _

/-- Quotes add nothing but ASCII, and leave out controls and stray bytes. -/
theorem madeOf_quoted {s : Text} (hs : ∀ c ∈ s.chars, 0x20 ≤ c.toNat → q c) : MadeOf q s.quoted := by
  have hglyphs : MadeOf q (s.glyphs.flatMap (escapedGlyph 0x22)) := by
    apply MadeOf.flatMap
    intro g hg
    cases g with
    | char c => exact madeOf_escapedChar hq (by decide) (hs c (List.mem_map.mpr ⟨_, hg, rfl⟩))
    | stray b => exact madeOf_hexEscape hq (by decide) 2 _
  exact (hglyphs.mark hq (by decide)).append (.of_all hq (by decide))

theorem madeOf_quotedByte (b : UInt8) : MadeOf q (quotedByte b) := by
  have hchar : MadeOf q (escapedChar 0x27 (Char.ofNat b.toNat)) := by
    apply madeOf_escapedChar hq (by decide)
    have hlt := b.toNat_lt
    rw [Char.toNat_ofNat, if_pos (Or.inl (by omega))]
    exact fun hlow => hq _ hlow hlt
  refine MadeOf.append (MadeOf.mark hq (by decide) ?_) (.of_all hq (by decide))
  split
  · rename_i h
    rw [h]
    exact .of_all hq (by decide)
  · exact hchar

end

end Text

/-! ### Notices -/

namespace Json

section

variable {q : Char → Prop} (hq : Text.IncludesLatin q)

include hq

theorem Place.madeOf_phrase (place : Place) : Text.MadeOf q place.phrase := by
  cases place with
  | inWord word expected =>
      have hword : Text.MadeOf q word.text := by
        cases word with
        | null => exact .of_all hq (by decide)
        | bool b => cases b <;> exact .of_all hq (by decide)
      exact ((((Text.MadeOf.of_all hq (by decide)).append hword).append
        (.of_all hq (by decide))).append (Text.madeOf_quotedByte hq expected)).append
        (.of_all hq (by decide))
  | _ => exact .of_all hq (by decide)

theorem ReadError.madeOf_message (e : ReadError) : Text.MadeOf q e.message := by
  cases e with
  | invalid b place =>
      exact (((Text.MadeOf.of_all hq (by decide)).append (Text.madeOf_quotedByte hq b)).append
        (.of_all hq (by decide))).append (place.madeOf_phrase hq)
  | tooDeep b =>
      exact ((Text.MadeOf.of_all hq (by decide)).append (Text.madeOf_quotedByte hq b)).append
        (.of_all hq (by decide))
  | unexpectedEnd => exact .of_all hq (by decide)

end

theorem IsLine.not_mem_escape {t : Text} (h : IsLine t) : 0x1B ∉ t :=
  fun hmem => absurd (h.le_of_mem hmem) (by decide)

theorem Digits.not_mem_escape {t : Text} (h : Digits t) : 0x1B ∉ t :=
  fun hmem => absurd (h.2 _ hmem) (by decide)

theorem isSpelling_not_mem_escape : IsSpelling (0x1B ∉ ·) where
  nil := List.not_mem_nil
  mark := by
    intro b t hb ht
    rw [List.mem_cons, not_or]
    refine ⟨?_, ht⟩
    rintro rfl
    exact absurd hb.1 (by decide)
  append := by
    intro s t hs ht
    rw [List.mem_append, not_or]
    exact ⟨hs, ht⟩

/-- What holds of all texts and numbers of an object holds of those of each member. -/
theorem forall_of_mem_members {ν : Type} {P : Text → Prop} {Q : ν → Prop} {ms : List (Text × Json ν)}
    (htexts : ∀ t ∈ membersTexts ms, P t) (hnumbers : ∀ n ∈ membersNumbers ms, Q n)
    {m : Text × Json ν} (hm : m ∈ ms) : P m.1 ∧ (∀ t ∈ m.2.texts, P t) ∧ ∀ n ∈ m.2.numbers, Q n := by
  rw [membersTexts_eq] at htexts
  rw [membersNumbers_eq] at hnumbers
  refine ⟨htexts _ (List.mem_flatMap.mpr ⟨m, hm, List.mem_cons_self⟩), ?_, ?_⟩
  · intro t ht
    exact htexts t (List.mem_flatMap.mpr ⟨m, hm, List.mem_cons_of_mem _ ht⟩)
  · intro n hn
    exact hnumbers n (List.mem_flatMap.mpr ⟨m, hm, hn⟩)

end Json

/-! ### Times -/

namespace Timestamp

theorem ascii_of_digits {t : Text} (h : Json.Digits t) : ∀ b ∈ t, 0x20 ≤ b ∧ b < 0x80 := by
  intro b hb
  have hdigit := h.2 b hb
  simp only [Text.isDigit, Bool.and_eq_true, decide_eq_true_eq] at hdigit
  exact ⟨UInt8.le_trans (by decide) hdigit.1, UInt8.lt_of_le_of_lt hdigit.2 (by decide)⟩

theorem ascii_two (n : Nat) : ∀ b ∈ two n, 0x20 ≤ b ∧ b < 0x80 :=
  ascii_of_digits (Number.digits_padded 2 n)

theorem ascii_clockText (t : Timestamp) : ∀ b ∈ t.clockText, 0x20 ≤ b ∧ b < 0x80 := by
  have hfraction : ∀ b ∈ Text.dropTailWhile (· == 0x30) (Number.padded 9 (Number.decimal t.nanosecond)),
      0x20 ≤ b ∧ b < 0x80 := by
    intro b hb
    rw [Text.dropTailWhile, List.mem_reverse] at hb
    have hmem := List.mem_reverse.mp ((List.dropWhile_sublist _).mem hb)
    exact ascii_of_digits (Number.digits_padded 9 t.nanosecond) b hmem
  rw [clockText]
  simp only [List.forall_mem_append, List.forall_mem_cons]
  refine ⟨⟨⟨ascii_two _, by decide, ascii_two _⟩, by decide, ascii_two _⟩, ?_⟩
  split
  · exact List.forall_mem_nil _
  · exact List.forall_mem_cons.mpr ⟨by decide, hfraction⟩

theorem clockText_ne_nil (t : Timestamp) : t.clockText ≠ [] := by simp [clockText]

theorem ascii_jsonText (t : Timestamp) : ∀ b ∈ t.jsonText, 0x20 ≤ b ∧ b < 0x80 := by
  have hdate : ∀ b ∈ t.dateText, 0x20 ≤ b ∧ b < 0x80 := by
    simp only [dateText, List.forall_mem_append, List.forall_mem_cons]
    exact ⟨⟨ascii_of_digits (Number.digits_padded 4 _), by decide, ascii_two _⟩, by decide, ascii_two _⟩
  have hoffset (seconds : Int) : ∀ b ∈ offsetText [0x3A] seconds, 0x20 ≤ b ∧ b < 0x80 := by
    simp only [offsetText, List.forall_mem_append, List.forall_mem_cons]
    refine ⟨⟨⟨?_, ascii_two _⟩, by decide, List.forall_mem_nil _⟩, ascii_two _⟩
    split <;> decide
  simp only [jsonText, List.forall_mem_append, List.forall_mem_cons]
  refine ⟨⟨hdate, by decide, t.ascii_clockText⟩, ?_⟩
  split
  · decide +kernel
  · exact hoffset _

theorem not_mem_clockText (t : Timestamp) : 0x1B ∉ t.clockText :=
  fun hmem => absurd (t.ascii_clockText _ hmem).1 (by decide)

theorem not_mem_jsonText (t : Timestamp) : 0x1B ∉ t.jsonText :=
  fun hmem => absurd (t.ascii_jsonText _ hmem).1 (by decide)

end Timestamp

namespace Log

theorem Level.not_mem_name (l : Level) : 0x1B ∉ l.name := by
  have hnamed : ∀ e ∈ named, 0x1B ∉ e.2 := by decide
  rw [name]
  split
  · rename_i e hfind
    exact hnamed _ (List.mem_of_find?_eq_some hfind)
  · cases l with
    | ofNat n => exact (Number.digits_decimal n).not_mem_escape
    | negSucc n =>
        rw [Number.integer, List.mem_cons, not_or]
        exact ⟨by decide, (Number.digits_decimal (n + 1)).not_mem_escape⟩

/-! ### Findings -/

/-- A finding without the escape character, whose numbers are literals. -/
structure Finding.IsPlain (x : Finding) : Prop where
  texts : ∀ t ∈ x.texts, 0x1B ∉ t
  numbers : ∀ l ∈ x.numbers, l.WellFormed

namespace Finding.IsPlain

theorem member {ms : List (Text × Finding)} (h : IsPlain (.object ms)) {m : Text × Finding}
    (hm : m ∈ ms) : 0x1B ∉ m.1 ∧ m.2.IsPlain := by
  obtain ⟨hkey, htexts, hnumbers⟩ := Json.forall_of_mem_members h.texts h.numbers hm
  exact ⟨hkey, htexts, hnumbers⟩

end Finding.IsPlain

theorem asText_array (xs : List Finding) :
    asText (.array xs) = 0x5B :: Text.join [0x20] (innerTexts xs) ++ [0x5D] := rfl

theorem asText_object (ms : List (Text × Finding)) :
    asText (.object ms) = utf8 "map[" ++ Text.join [0x20] (innerEntries ms) ++ [0x5D] := rfl

section

variable {P : Text → Prop} (hP : IsSpelling P)

include hP

theorem spelled_innerTexts {xs : List Finding} (h : ∀ x ∈ xs, P (asText x)) :
    ∀ t ∈ innerTexts xs, P t := by
  induction xs with
  | nil => exact List.forall_mem_nil _
  | cons x xs ih =>
      obtain ⟨hx, hxs⟩ := List.forall_mem_cons.mp h
      -- Only a null is shown otherwise inside a collection.
      cases x with
      | null => exact List.forall_mem_cons.mpr ⟨hP.ascii (by decide +kernel), ih hxs⟩
      | _ => exact List.forall_mem_cons.mpr ⟨hx, ih hxs⟩

theorem spelled_innerEntries {ms : List (Text × Finding)} (h : ∀ m ∈ ms, P m.1 ∧ P (asText m.2)) :
    ∀ t ∈ innerEntries ms, P t := by
  have hentry {k t : Text} (hk : P k) (ht : P t) : P (k ++ 0x3A :: t) :=
    hP.append hk (hP.mark (by decide) ht)
  induction ms with
  | nil => exact List.forall_mem_nil _
  | cons m ms ih =>
      obtain ⟨⟨hk, hx⟩, hms⟩ := List.forall_mem_cons.mp h
      obtain ⟨k, x⟩ := m
      cases x with
      | null => exact List.forall_mem_cons.mpr ⟨hentry hk (hP.ascii (by decide +kernel)), ih hms⟩
      | _ => exact List.forall_mem_cons.mpr ⟨hentry hk hx, ih hms⟩

/-- A value shown as a text is spelled as its strings, its keys and its numbers are. -/
theorem spelled_asText {x : Finding} (htexts : ∀ t ∈ x.texts, P t)
    (hnumbers : ∀ l ∈ x.numbers, P l.text) : P (asText x) := by
  have hend : P [0x5D] := hP.mark (by decide) hP.nil
  induction x using Json.induct with
  | null => exact hP.ascii (by decide +kernel)
  | bool b => cases b <;> exact hP.ascii (by decide +kernel)
  | number l => exact hnumbers l (List.mem_singleton.mpr rfl)
  | string s => exact htexts s (List.mem_singleton.mpr rfl)
  | array xs ih =>
      rw [Json.texts, Json.elementsTexts_eq] at htexts
      rw [Json.numbers, Json.elementsNumbers_eq] at hnumbers
      have hinner := spelled_innerTexts hP fun x hx =>
        ih x hx (fun t ht => htexts t (List.mem_flatMap.mpr ⟨x, hx, ht⟩))
          (fun l hl => hnumbers l (List.mem_flatMap.mpr ⟨x, hx, hl⟩))
      rw [asText_array]
      exact hP.append (hP.mark (by decide) (hP.join (by decide) hinner)) hend
  | object ms ih =>
      rw [Json.texts, Json.membersTexts_eq] at htexts
      rw [Json.numbers, Json.membersNumbers_eq] at hnumbers
      have hinner := spelled_innerEntries hP fun m hm =>
        ⟨htexts m.1 (List.mem_flatMap.mpr ⟨m, hm, List.mem_cons_self⟩),
          ih m hm (fun t ht => htexts t (List.mem_flatMap.mpr ⟨m, hm, List.mem_cons_of_mem _ ht⟩))
            (fun l hl => hnumbers l (List.mem_flatMap.mpr ⟨m, hm, hl⟩))⟩
      rw [asText_object]
      exact hP.append (hP.append (hP.ascii (by decide +kernel)) (hP.join (by decide) hinner)) hend

end

namespace Finding.IsPlain

theorem not_mem_asText {x : Finding} (h : x.IsPlain) : 0x1B ∉ asText x := by
  refine spelled_asText Json.isSpelling_not_mem_escape h.texts fun l hl hmem => ?_
  exact ((h.numbers l hl).of_mem_text _ hmem).1 rfl

theorem asText_ne_nil {x : Finding} (h : x.IsPlain) (hx : x ≠ .string []) : asText x ≠ [] := by
  cases x with
  | null => decide
  | bool b => cases b <;> decide
  | number l =>
      have hl := h.numbers l (List.mem_singleton.mpr rfl)
      obtain ⟨b, s, hs, -⟩ := (Json.IsValue.number hl).head
      change l.text ≠ []
      rw [hs]
      exact List.cons_ne_nil b s
  | string s =>
      intro hs
      exact hx (congrArg Json.string hs)
  | array xs => exact List.cons_ne_nil _ _
  | object ms => simp [asText_object]

theorem not_mem_fieldValue {x : Finding} (h : x.IsPlain) : 0x1B ∉ Console.fieldValue x := by
  have hwritten : 0x1B ∉ x.write .plain Json.Literal.text := by
    refine (Json.isLine_write fun l hl => isLine_ascii fun b hb => ?_).not_mem_escape
    obtain ⟨hlow, hhigh, -⟩ := (h.numbers l hl).mem_text hb
    exact ⟨hlow, UInt8.lt_trans hhigh (by decide)⟩
  cases x with
  | string s =>
      rw [Console.fieldValue]
      split
      · exact Json.IsLine.not_mem_escape (Text.madeOf_quoted Json.includesLatin_line fun _ _ hlow => hlow)
      · exact h.texts s (List.mem_singleton.mpr rfl)
  | _ => exact hwritten

end Finding.IsPlain

/-- What is found in an event that does not spell the escape character. -/
theorem Console.isPlain_of_membersOf {event : Text} {seen : Keyed Finding} (h : LacksEscape event)
    (hseen : membersOf event = .ok seen) : ∀ e ∈ seen, 0x1B ∉ e.1 ∧ e.2.IsPlain := by
  rw [membersOf] at hseen
  cases hread : Json.read event with
  | error e =>
      rw [hread] at hseen
      cases hseen
  | ok x =>
      rw [hread] at hseen
      have hplain : Finding.IsPlain x.canonical :=
        { texts := fun t ht => Json.not_mem_of_read h hread t (Json.mem_texts_of_canonical ht)
          numbers := fun l hl =>
            (Json.read_ok_iff.mp hread).1.wellFormed (Json.mem_numbers_of_canonical hl) }
      simp only [bind, Except.bind] at hseen
      split at hseen
      · rename_i members hcanonical
        obtain rfl := Except.ok.inj hseen
        rw [hcanonical] at hplain
        exact fun e he => hplain.member he
      · obtain rfl := Except.ok.inj hseen
        exact List.forall_mem_nil _

/-! ### Paths -/

theorem mem_of_mem_down_step {r : Route} {part name : Text} (h : name ∈ (r.step part).down) :
    name ∈ r.down ∨ name = part := by
  rw [Route.step] at h
  split at h
  · exact .inl h
  split at h
  · split at h
    · exact .inl h
    · exact .inl (List.mem_of_mem_dropLast h)
  · rcases List.mem_append.mp h with h | h
    · exact .inl h
    · exact .inr (List.mem_singleton.mp h)

/-- Every name of a route is a part of its path. -/
theorem mem_split_of_mem_down {path name : Text} (h : name ∈ (Route.ofText path).down) :
    name ∈ Text.split 0x2F path := by
  have hsteps (r : Route) (parts : List Text) (h : name ∈ (parts.foldl Route.step r).down) :
      name ∈ r.down ∨ name ∈ parts := by
    induction parts generalizing r with
    | nil => exact .inl h
    | cons part parts ih =>
        rcases ih _ h with h | h
        · refine (mem_of_mem_down_step h).imp_right ?_
          rintro rfl
          exact List.mem_cons_self
        · exact .inr (List.mem_cons_of_mem _ h)
  exact (hsteps {} _ h).resolve_left List.not_mem_nil

theorem mem_of_mem_down_between {here there : List Text} {name : Text}
    (h : name ∈ (Route.between here there).down) : name ∈ there := by
  fun_induction Route.between here there with
  | case1 a as bs ih => exact List.mem_cons_of_mem _ (ih h)
  | case2 => exact h
  | case3 => exact h

section

variable {P : Text → Prop} (hP : IsSpelling P)

include hP

theorem spelled_route {r : Route} (h : ∀ name ∈ r.down, P name) : P r.text := by
  rw [Route.text]
  split
  · exact hP.ascii (by decide +kernel)
  · refine hP.join (by decide) (List.forall_mem_append.mpr ⟨fun t ht => ?_, h⟩)
    rw [List.eq_of_mem_replicate ht]
    exact hP.ascii (by decide +kernel)

/-- A path is shown as its parts are spelled. What the working directory is called does not get into
it. -/
theorem Ambient.spelled_shownPath (a : Ambient) {path : Text} (hpath : P path)
    (hparts : ∀ name ∈ Text.split 0x2F path, P name) : P (a.shownPath path) := by
  rw [shownPath]
  cases a.directory with
  | none => exact hpath
  | some directory =>
      rw [Option.elim_some, Text.seenFrom]
      split
      · exact spelled_route hP fun name hname =>
          hparts name (mem_split_of_mem_down (mem_of_mem_down_between hname))
      · exact hpath

end

theorem Ambient.not_mem_shownPath (a : Ambient) {path : Text} (h : 0x1B ∉ path) :
    0x1B ∉ a.shownPath path :=
  a.spelled_shownPath Json.isSpelling_not_mem_escape h fun _ hname hmem =>
    h (Text.mem_of_mem_split hname hmem)

theorem Console.mem_of_mem_otherFields {seen : Keyed Finding} {e : Text × Finding}
    (h : e ∈ otherFields seen) : e ∈ seen := by
  rw [otherFields] at h
  split at h
  · rename_i first hfirst
    rcases List.mem_cons.mp h with rfl | h
    · exact List.mem_of_mem_filter (List.mem_of_find?_eq_some hfirst)
    · exact List.mem_of_mem_filter (List.mem_of_mem_filter h)
  · exact List.mem_of_mem_filter h

theorem Logger.not_mem_notice (e : Json.ReadError) : 0x1B ∉ notice e := by
  rw [notice, List.mem_append, not_or]
  have hline : IsLine e.message := e.madeOf_message Json.includesLatin_line
  exact ⟨((isLine_of_all (by decide)).append hline).not_mem_escape, by decide⟩

/-! ### Events -/

/-- The texts of a value: what it says, or the strings and keys of its data. -/
def Value.texts : Value → List Text
  | text s => [s]
  | data x => x.texts

def Member.texts (m : Member) : List Text := m.key :: m.value.texts

/-- The texts that a derivation is given: names, keys and the strings of values. -/
def Derivation.texts : Derivation → List Text
  | component name => [name]
  | fields fs => Json.membersTexts fs
  | error text => text.toList

section

variable {P : Text → Prop}

theorem Member.forall_texts_ofFields {fs : Keyed Detail} (h : ∀ t ∈ Json.membersTexts fs, P t) :
    ∀ m ∈ ofFields fs, ∀ t ∈ m.texts, P t := by
  intro m hm
  obtain ⟨e, he, rfl⟩ := List.mem_map.mp hm
  obtain ⟨hkey, hvalue, -⟩ := Json.forall_of_mem_members h (fun _ _ => trivial) he
  exact List.forall_mem_cons.mpr ⟨hkey, hvalue⟩

variable (hown : ∀ k ∈ ownKeys, P k)

include hown

theorem Member.forall_texts_text {key text : Text} (hkey : key ∈ ownKeys) (htext : P text) :
    ∀ t ∈ texts ⟨key, .text text⟩, P t :=
  List.forall_mem_cons.mpr ⟨hown key hkey, List.forall_mem_singleton.mpr htext⟩

theorem Member.forall_texts_optional {p : Prop} [Decidable p] {key text : Text} (hkey : key ∈ ownKeys)
    (htext : ¬p → P text) :
    ∀ m ∈ (if p then [] else [⟨key, .text text⟩] : List Member), ∀ t ∈ m.texts, P t := by
  intro m hm
  split at hm
  · cases hm
  · rw [List.mem_singleton.mp hm]
    exact forall_texts_text hown hkey (htext ‹_›)

theorem Derivation.forall_texts_members {d : Derivation} (h : ∀ t ∈ d.texts, P t) :
    ∀ m ∈ d.members, ∀ t ∈ m.texts, P t := by
  cases d with
  | component name =>
      have hname := h name (List.mem_singleton.mpr rfl)
      exact List.forall_mem_singleton.mpr (Member.forall_texts_text hown (by simp [ownKeys]) hname)
  | fields fs => exact Member.forall_texts_ofFields h
  | error text =>
      cases text with
      | none => exact List.forall_mem_nil _
      | some text =>
          have htext := h text (List.mem_singleton.mpr rfl)
          exact List.forall_mem_singleton.mpr (Member.forall_texts_text hown (by simp [ownKeys]) htext)

/-- The texts of a call are those that it is given, the time and the place. -/
theorem Logger.forall_texts_callMembers {l : Logger} {a : Ambient}
    (htime : P { a.now with nanosecond := 0 }.jsonText) (hcaller : l.caller = true → P a.caller)
    {message : Text} (hmessage : P message) {fields : List (Keyed Detail)}
    (hfields : ∀ t ∈ fields.flatMap Json.membersTexts, P t) :
    ∀ m ∈ l.callMembers a message fields, ∀ t ∈ m.texts, P t := by
  simp only [callMembers, List.forall_mem_append, ← ite_not (l.timestamp = true),
    ← ite_not (l.caller = true)]
  refine ⟨⟨⟨?_, ?_⟩, ?_⟩, ?_⟩
  · intro m hm
    obtain ⟨fs, hfs, hm⟩ := List.mem_flatMap.mp hm
    exact Member.forall_texts_ofFields
      (fun t ht => hfields t (List.mem_flatMap.mpr ⟨fs, hfs, ht⟩)) m hm
  · exact Member.forall_texts_optional hown (by simp [ownKeys]) fun _ => htime
  · exact Member.forall_texts_optional hown (by simp [ownKeys]) fun h => hcaller (not_not.mp h)
  · exact Member.forall_texts_optional hown (by simp [ownKeys]) fun _ => hmessage

end

theorem Member.lacksEscape_toJson {m : Member} (h : ∀ t ∈ m.texts, 0x1B ∉ t) :
    LacksEscape m.toJson := by
  obtain ⟨key, value⟩ := m
  obtain ⟨hkey, hvalue⟩ := List.forall_mem_cons.mp h
  have hwritten : LacksEscape value.toJson := by
    cases value with
    | text s => exact Json.StringStyle.event.lacksEscape_write (hvalue s (List.mem_singleton.mpr rfl))
    | data x => exact Json.lacksEscape_write .plain hvalue
  have hcolon : LacksEscape (0x3A :: value.toJson) := by simpa using hwritten
  exact (Json.StringStyle.event.lacksEscape_write hkey).append hcolon

theorem not_mem_of_mem_ownKeys : ∀ k ∈ ownKeys, 0x1B ∉ k := by decide

namespace Draft

/-- A draft that does not spell the escape character. -/
def IsPlain (d : Draft) : Prop := ∃ members, d = 0x7B :: members ∧ LacksEscape members

theorem IsPlain.add {d : Draft} (hd : d.IsPlain) {m : Member} (hm : LacksEscape m.toJson) :
    (d.add m).IsPlain := by
  obtain ⟨members, rfl, hmembers⟩ := hd
  have hcomma : LacksEscape [0x2C] := by simp
  rw [Draft.add]
  split
  · exact ⟨members ++ m.toJson, rfl, hmembers.append hm⟩
  · exact ⟨members ++ [0x2C] ++ m.toJson, rfl, (hmembers.append hcomma).append hm⟩

theorem IsPlain.addAll {d : Draft} (hd : d.IsPlain) {ms : List Member}
    (hms : ∀ m ∈ ms, LacksEscape m.toJson) : (d.addAll ms).IsPlain := by
  induction ms generalizing d with
  | nil => exact hd
  | cons m ms ih =>
      obtain ⟨hm, hms⟩ := List.forall_mem_cons.mp hms
      exact ih (hd.add hm) hms

theorem isPlain_start_addAll {ms : List Member} (hms : ∀ m ∈ ms, LacksEscape m.toJson) :
    (start.addAll ms).IsPlain :=
  IsPlain.addAll ⟨[], rfl, .nil⟩ hms

theorem IsPlain.splice {d other : Draft} (hd : d.IsPlain) (hother : other.IsPlain) :
    (d.splice other).IsPlain := by
  have hkept := hd
  obtain ⟨members, rfl, hmembers⟩ := hd
  obtain ⟨others, rfl, hothers⟩ := hother
  have hcomma : LacksEscape [0x2C] := by simp
  rw [Draft.splice]
  split
  · exact hkept
  split
  · exact ⟨members ++ others, rfl, hmembers.append hothers⟩
  · exact ⟨members ++ [0x2C] ++ others, rfl, (hmembers.append hcomma).append hothers⟩

theorem IsPlain.lacksEscape_close {d : Draft} (hd : d.IsPlain) : LacksEscape d.close := by
  obtain ⟨members, rfl, hmembers⟩ := hd
  have hend : LacksEscape [0x7D, 0x0A] := by simp
  have hclosed := hmembers.append hend
  simpa [close] using hclosed

end Draft

namespace Logger

/-- A logger that says nothing with the escape character. -/
structure IsPlain (l : Logger) : Prop where
  context : l.context.IsPlain
  component : ∀ style, l.form = .console style → 0x1B ∉ style.component

theorem isPlain_ofConfig (c : Config) {component : Text} (hcomponent : 0x1B ∉ component)
    (stream : Stream) : IsPlain (ofConfig c component stream) where
  context := by
    apply Draft.isPlain_start_addAll
    intro m hm
    exact Member.lacksEscape_toJson
      (Member.forall_texts_optional not_mem_of_mem_ownKeys (by simp [ownKeys]) (fun _ => hcomponent) m hm)
  component := by
    intro style hstyle
    rw [ofConfig] at hstyle
    simp only at hstyle
    split at hstyle
    · cases hstyle
      exact hcomponent
    · cases hstyle

theorem IsPlain.derive {l : Logger} (h : l.IsPlain) {d : Derivation}
    (hd : ∀ t ∈ d.texts, 0x1B ∉ t) : (l.derive d).IsPlain := by
  rw [derive_eq]
  refine ⟨h.context.addAll fun m hm => ?_, h.component⟩
  exact Member.lacksEscape_toJson (Derivation.forall_texts_members not_mem_of_mem_ownKeys hd m hm)

/-- The event of a call with texts without the escape character does not spell it. -/
theorem IsPlain.lacksEscape_event {l : Logger} (h : l.IsPlain) {a : Ambient}
    (hcaller : l.caller = true → 0x1B ∉ a.caller) (level : Level) {message : Text}
    (hmessage : 0x1B ∉ message) {fields : List (Keyed Detail)}
    (hfields : ∀ t ∈ fields.flatMap Json.membersTexts, 0x1B ∉ t) :
    LacksEscape (l.event a level message fields) := by
  have hlevel : ∀ m ∈ levelMember level, LacksEscape m.toJson := fun m hm =>
    Member.lacksEscape_toJson (Member.forall_texts_optional not_mem_of_mem_ownKeys (by simp [ownKeys])
      (fun _ => level.not_mem_name) m hm)
  have hcall : ∀ m ∈ l.callMembers a message fields, LacksEscape m.toJson := fun m hm =>
    Member.lacksEscape_toJson (forall_texts_callMembers not_mem_of_mem_ownKeys
      (Timestamp.not_mem_jsonText _) hcaller hmessage hfields m hm)
  exact (((Draft.isPlain_start_addAll hlevel).splice h.context).addAll hcall).lacksEscape_close

end Logger

end Log

end ServiceKit
