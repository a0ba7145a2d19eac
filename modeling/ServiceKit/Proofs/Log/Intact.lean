import Mathlib
import ServiceKit.Proofs.Log.Lines
import ServiceKit.Proofs.Log.Shown

/-!
Which lines for people are whole. U+FFFD is what reading puts in the place of stray bytes. Texts that
are read without it are put into an event, read from it again, quoted and set in capitals without it. The
tag of a component is the only exception: its name is cut after three bytes, in the middle of a
character or not.
-/

namespace ServiceKit

namespace Text

/-- The text is read without U+FFFD: it has neither stray bytes nor that character. -/
def IsIntact (t : Text) : Prop := Glyph.replacement ∉ t.chars

instance (t : Text) : Decidable t.IsIntact :=
  inferInstanceAs (Decidable (Glyph.replacement ∉ t.chars))

theorem IsIntact.sanitize_eq {t : Text} (h : t.IsIntact) : t.sanitize = t := by
  have hglyph : ∀ g ∈ t.glyphs, String.utf8EncodeChar g.shown = g.bytes := by
    intro g hg
    cases g with
    | char c => rfl
    | stray b => exact absurd (List.mem_map.mpr ⟨_, hg, rfl⟩) h
  calc t.sanitize = t.glyphs.flatMap fun g => String.utf8EncodeChar g.shown := by
        rw [sanitize, ofChars, chars, List.flatMap_map]
    _ = ofGlyphs t.glyphs := List.flatMap_congr hglyph
    _ = t := ofGlyphs_glyphs t

theorem isIntact_iff_madeOf {t : Text} : t.IsIntact ↔ MadeOf (· ≠ Glyph.replacement) t := by
  constructor
  · intro h
    refine ⟨t.chars, h.sanitize_eq.symm, ?_⟩
    rintro c hc rfl
    exact h hc
  · rintro ⟨cs, rfl, hcs⟩
    rw [IsIntact, chars_ofChars]
    exact fun hmem => hcs _ hmem rfl

theorem toNat_replacement : Glyph.replacement.toNat = 0xFFFD := by decide

theorem includesLatin_intact : IncludesLatin (· ≠ Glyph.replacement) := by
  intro n _ hlt heq
  have hpoint := congrArg Char.toNat heq
  rw [Char.toNat_ofNat, if_pos (Or.inl (by omega)), toNat_replacement] at hpoint
  omega

theorem isIntact_ascii {t : Text} (h : ∀ b ∈ t, 0x20 ≤ b ∧ b < 0x80) : t.IsIntact :=
  isIntact_iff_madeOf.mpr (.ascii includesLatin_intact h)

theorem isSpelling_isIntact : Json.IsSpelling IsIntact := by
  have heq : IsIntact = MadeOf (· ≠ Glyph.replacement) := by
    funext t
    exact propext isIntact_iff_madeOf
  rw [heq]
  exact Json.isSpelling_madeOf includesLatin_intact

theorem IsIntact.append {s t : Text} (hs : s.IsIntact) (ht : t.IsIntact) : IsIntact (s ++ t) :=
  isSpelling_isIntact.append hs ht

/-- A byte of ASCII keeps what stands before it and what stands after it apart. -/
theorem isIntact_append_ascii {b : UInt8} (hb : b < 0x80) {s t : Text} :
    IsIntact (s ++ b :: t) ↔ s.IsIntact ∧ t.IsIntact := by
  have hne : Glyph.replacement ≠ Char.ofNat b.toNat := by
    intro heq
    have hpoint := congrArg Char.toNat heq
    rw [toNat_ofNat_ascii hb, toNat_replacement] at hpoint
    have hlt := b.toNat_lt
    omega
  rw [IsIntact, chars_append_ascii hb, List.mem_append, List.mem_cons, not_or, not_or]
  exact and_congr_right fun _ => and_iff_right hne

/-- What stands between bytes of ASCII is intact if the whole is. -/
theorem IsIntact.of_mem_split {b : UInt8} (hb : b < 0x80) {s w : Text} (h : s.IsIntact)
    (hw : w ∈ split b s) : w.IsIntact := by
  have hpieces (ws : List Text) (h : IsIntact (join [b] ws)) : ∀ w ∈ ws, w.IsIntact := by
    induction ws with
    | nil => exact List.forall_mem_nil _
    | cons v ws ih =>
        cases ws with
        | nil => exact List.forall_mem_singleton.mpr h
        | cons u ws =>
            rw [join_cons_cons, List.append_assoc, List.singleton_append, isIntact_append_ascii hb] at h
            exact List.forall_mem_cons.mpr ⟨h.1, ih h.2⟩
  exact hpieces _ ((join_split b s).symm ▸ h) w hw

theorem isIntact_of_bracketed {p s r : Text} (h : IsIntact (p ++ (0x5B :: s ++ [0x5D]) ++ r)) :
    s.IsIntact := by
  have hsplit : p ++ (0x5B :: s ++ [0x5D]) ++ r = p ++ 0x5B :: (s ++ 0x5D :: r) := by simp
  rw [hsplit, isIntact_append_ascii (by decide), isIntact_append_ascii (by decide)] at h
  exact h.2.1

theorem IsIntact.bracketed {s : Text} (h : s.IsIntact) : IsIntact (0x5B :: s ++ [0x5D]) :=
  IsIntact.append (isSpelling_isIntact.mark (by decide) h) (by decide)

theorem IsIntact.quoted {s : Text} (h : s.IsIntact) : s.quoted.IsIntact := by
  refine isIntact_iff_madeOf.mpr (madeOf_quoted includesLatin_intact ?_)
  rintro c hc - rfl
  exact h hc

theorem IsIntact.write {s : Text} (h : s.IsIntact) (style : Json.StringStyle) :
    IsIntact (style.write s) := by
  refine isIntact_iff_madeOf.mpr (style.madeOf_write includesLatin_intact ?_)
  rintro c hc - rfl
  exact h hc

/-! ### Capitals -/

theorem CaseRun.upperTable_avoids_replacement :
    upperTable.all (fun r => r.avoids 0xFFFD) = true := by
  decide +kernel

theorem upperPoint_eq_replacement_iff {n : Nat} : upperPoint n = 0xFFFD ↔ n = 0xFFFD := by
  constructor
  · intro h
    by_cases hascii : n < 0x80
    · rw [upperPoint, if_pos hascii] at h
      split at h <;> omega
    · rw [upperPoint, if_neg hascii] at h
      rcases CaseRun.apply_eq CaseRun.upperTable n with hn | ⟨r, hr, hold, hn⟩
      · exact hn.symm.trans h
      · -- No run of the table has the point among its images.
        have havoids := List.all_eq_true.mp CaseRun.upperTable_avoids_replacement r hr
        simp only [CaseRun.holds, Bool.and_eq_true, decide_eq_true_eq, beq_iff_eq] at hold
        simp only [CaseRun.avoids, Bool.or_eq_true, decide_eq_true_eq] at havoids
        rw [hn, CaseRun.map] at h
        omega
  · rintro rfl
    decide +kernel

theorem upperChar_eq_replacement_iff {c : Char} :
    upperChar c = Glyph.replacement ↔ c = Glyph.replacement := by
  have hpoint (d : Char) : d = Glyph.replacement ↔ d.toNat = 0xFFFD := by
    rw [← toNat_replacement, Char.toNat_inj]
  rw [hpoint, hpoint, upperChar, Char.toNat_ofNat]
  split
  · exact upperPoint_eq_replacement_iff
  · rename_i hvalid
    refine iff_of_false (by decide) fun h => hvalid ?_
    rw [upperPoint_eq_replacement_iff.mpr h]
    decide

theorem isIntact_upper_iff {s : Text} : s.upper.IsIntact ↔ s.IsIntact := by
  simp only [IsIntact, upper, chars_ofChars, List.mem_map, upperChar_eq_replacement_iff,
    exists_eq_right]

theorem exists_of_mem_join (sep : Text) {t : Text} {ts : List Text} (h : t ∈ ts) :
    ∃ p r, join sep ts = p ++ t ++ r := by
  induction ts with
  | nil => cases h
  | cons u ts ih =>
      rcases List.mem_cons.mp h with rfl | h
      · cases ts with
        | nil => exact ⟨[], [], by simp [join]⟩
        | cons v ts => exact ⟨[], sep ++ join sep (v :: ts), by simp [join_cons_cons]⟩
      · obtain ⟨p, r, hjoin⟩ := ih h
        refine ⟨u ++ sep ++ p, r, ?_⟩
        rw [join_cons sep u (List.ne_nil_of_mem h), hjoin]
        simp

end Text

namespace Log

/-! ### Events -/

/-- A finding whose texts are intact and whose numbers are literals. -/
structure Finding.IsIntact (x : Finding) : Prop where
  texts : ∀ t ∈ x.texts, t.IsIntact
  numbers : ∀ l ∈ x.numbers, l.WellFormed

/-- What is read again is what was written. -/
theorem Member.isIntact_found {m : Member} (h : ∀ t ∈ m.texts, t.IsIntact) :
    ∀ t ∈ m.found.1 :: m.found.2.texts, t.IsIntact := by
  have hclean {t : Text} (ht : t.IsIntact) : t.sanitize.IsIntact := by
    rw [ht.sanitize_eq]
    exact ht
  obtain ⟨key, value⟩ := m
  obtain ⟨hkey, hvalue⟩ := List.forall_mem_cons.mp h
  refine List.forall_mem_cons.mpr ⟨hclean hkey, ?_⟩
  cases value with
  | text s => exact List.forall_mem_singleton.mpr (hclean (hvalue s (List.mem_singleton.mpr rfl)))
  | data x =>
      change ∀ t ∈ (x.rendered Number.Numeral.literal).texts, t.IsIntact
      rw [Json.texts_rendered]
      intro t ht
      obtain ⟨s, hs, rfl⟩ := List.mem_map.mp ht
      exact hclean (hvalue s hs)

/-- All that is said in the line of a call with intact texts is intact. -/
theorem Logger.isIntact_recordOf {c : Config} {component : Text} {chain : List Derivation} {a : Ambient}
    {level : Level} (hlevel : level ∈ [Level.debug, Level.info, Level.warn, Level.error])
    {message : Text} {fields : List (Keyed Detail)}
    (htexts : ∀ t ∈ component :: message :: (chain.flatMap Derivation.texts ++
      fields.flatMap Json.membersTexts), t.IsIntact)
    (hcaller : c.caller = true → a.caller.IsIntact) (stream : Stream) :
    ∀ m ∈ recordOf c component stream chain a level message fields, ∀ t ∈ m.texts, t.IsIntact := by
  have hown : ∀ k ∈ ownKeys, k.IsIntact := by decide +kernel
  have hnames : ∀ level ∈ [Level.debug, Level.info, Level.warn, Level.error], level.name.IsIntact := by
    decide +kernel
  obtain ⟨hcomponent, htexts⟩ := List.forall_mem_cons.mp htexts
  obtain ⟨hmessage, htexts⟩ := List.forall_mem_cons.mp htexts
  obtain ⟨hchain, hfields⟩ := List.forall_mem_append.mp htexts
  have htime := Text.isIntact_ascii (Timestamp.ascii_jsonText { a.now with nanosecond := 0 })
  rw [recordOf]
  refine List.forall_mem_append.mpr ⟨List.forall_mem_append.mpr ⟨?_, List.forall_mem_append.mpr ⟨?_, ?_⟩⟩,
    forall_texts_callMembers hown htime hcaller hmessage hfields⟩
  · exact Member.forall_texts_optional hown (by simp [ownKeys]) fun _ => hnames level hlevel
  · exact Member.forall_texts_optional hown (by simp [ownKeys]) fun _ => hcomponent
  · intro m hm
    obtain ⟨d, hd, hm⟩ := List.mem_flatMap.mp hm
    exact Derivation.forall_texts_members hown
      (fun t ht => hchain t (List.mem_flatMap.mpr ⟨d, hd, ht⟩)) m hm

/-! ### Lines -/

theorem Finding.IsIntact.text_number {x : Finding} (h : x.IsIntact) :
    ∀ l ∈ x.numbers, l.text.IsIntact := by
  intro l hl
  apply Text.isIntact_ascii
  intro b hb
  obtain ⟨hlow, hhigh, -⟩ := (h.numbers l hl).mem_text hb
  exact ⟨hlow, UInt8.lt_trans hhigh (by decide)⟩

theorem Finding.IsIntact.asText {x : Finding} (h : x.IsIntact) : (asText x).IsIntact :=
  spelled_asText Text.isSpelling_isIntact h.texts h.text_number

theorem Finding.IsIntact.fieldValue {x : Finding} (h : x.IsIntact) :
    (Console.fieldValue x).IsIntact := by
  have hwritten : (x.write .plain Json.Literal.text).IsIntact :=
    Text.isSpelling_isIntact.isKept.write (fun t ht => (h.texts t ht).write .plain) h.text_number
  cases x with
  | string s =>
      have hs := h.texts s (List.mem_singleton.mpr rfl)
      rw [Console.fieldValue]
      split
      · exact hs.quoted
      · exact hs
  | _ => exact hwritten

namespace Console

section

variable {c : Console} (hcolour : c.noColor = true)

include hcolour

theorem componentTag_eq : c.componentTag =
    if c.component.length < 3 then [] else 0x5B :: Text.upper (c.component.take 3) ++ [0x5D] := by
  rw [componentTag, hcolour]
  rfl

theorem isIntact_componentTag
    (h : c.component.length < 3 ∨ Text.IsIntact (c.component.take 3)) : c.componentTag.IsIntact := by
  rw [componentTag_eq hcolour]
  split
  · exact Text.isSpelling_isIntact.nil
  · exact (Text.isIntact_upper_iff.mpr (h.resolve_left ‹_›)).bracketed

theorem isIntact_levelTag {level : Finding} (h : level.IsIntact) : (c.levelTag level).IsIntact := by
  have htags : ∀ e ∈ levelTags, e.2.1.IsIntact := by decide +kernel
  rw [levelTag, hcolour]
  cases hfind : levelTags.find? fun e => e.1 == (asText level).upper with
  | none => exact (Text.isIntact_upper_iff.mpr h.asText).bracketed
  | some e =>
      obtain ⟨word, tag, code⟩ := e
      have htag := htags _ (List.mem_of_find?_eq_some hfind)
      cases code <;> exact htag

end

theorem isIntact_callerPart (a : Ambient) {caller : Option Finding}
    (h : ∀ x, caller = some x → x.IsIntact) : (callerPart false a caller).IsIntact := by
  cases caller with
  | none => exact Text.isSpelling_isIntact.nil
  | some x =>
      cases x with
      | string s =>
          rw [callerPart]
          split
          · exact Text.isSpelling_isIntact.nil
          · have hs := (h _ rfl).texts s (List.mem_singleton.mpr rfl)
            have hshown := a.spelled_shownPath Text.isSpelling_isIntact hs fun _ hname =>
              hs.of_mem_split (by decide) hname
            exact hshown.append (by decide)
      | _ => exact Text.isSpelling_isIntact.nil

theorem isIntact_messagePart (level : Option Finding) {message : Option Finding}
    (h : ∀ x, message = some x → x.IsIntact) : (messagePart false level message).IsIntact := by
  unfold messagePart
  split
  · exact Text.isSpelling_isIntact.nil
  · exact Text.isSpelling_isIntact.nil
  · exact Text.isSpelling_isIntact.nil
  · exact (h _ rfl).asText

theorem isIntact_fieldText {key : Text} (hkey : key.IsIntact) {x : Finding} (hx : x.IsIntact) :
    (fieldText false key x).IsIntact := by
  rw [fieldText]
  split
  · exact (hkey.append (by decide)).append hx.fieldValue
  · exact hkey.append (Text.isSpelling_isIntact.mark (by decide) hx.fieldValue)

/-- The tags of component and level stand in the line. -/
theorem exists_lineOf_eq {c : Console} (hlevel : .level ∈ c.parts) (a : Ambient)
    (seen : Keyed Finding) :
    ∃ p r, c.lineOf a seen = p ++ c.levelPart ((seen.find? levelKey).getD .null) ++ r := by
  by_cases hempty : c.levelPart ((seen.find? levelKey).getD .null) = []
  · refine ⟨[], c.lineOf a seen, ?_⟩
    rw [hempty]
    rfl
  · have hpart : c.levelPart ((seen.find? levelKey).getD .null) ∈
        (c.parts.map (c.partText (!c.noColor && !a.quiet) a seen)).filter fun p => !p.isEmpty := by
      refine List.mem_filter.mpr ⟨List.mem_map.mpr ⟨.level, hlevel, rfl⟩, ?_⟩
      simpa using hempty
    obtain ⟨p, r, hjoin⟩ := Text.exists_of_mem_join [0x20] hpart
    rw [lineOf, joinParts]
    simp only [hjoin, List.append_assoc]
    exact ⟨p, _, rfl⟩

section

variable {c : Console} {seen : Keyed Finding} (hcolour : c.noColor = true)
  (hseen : ∀ e ∈ seen, e.1.IsIntact ∧ e.2.IsIntact)

include hcolour hseen

theorem isIntact_partText (htag : c.componentTag.IsIntact) (a : Ambient) (part : Part) :
    (c.partText false a seen part).IsIntact := by
  have hfound (key : Text) (x : Finding) (hx : seen.find? key = some x) : x.IsIntact :=
    (hseen _ (Keyed.mem_of_find? hx)).2
  cases part with
  | time => exact Text.isIntact_ascii (Timestamp.ascii_clockText _)
  | level =>
      refine htag.append (isIntact_levelTag hcolour ?_)
      cases hx : seen.find? levelKey with
      | none => exact ⟨List.forall_mem_nil _, List.forall_mem_nil _⟩
      | some x => exact hfound levelKey x hx
  | caller => exact isIntact_callerPart a (hfound callerKey)
  | message => exact isIntact_messagePart _ (hfound messageKey)

/-- A line of intact members is intact just if the tag of its component is. -/
theorem isIntact_lineOf_iff (hlevel : .level ∈ c.parts) (a : Ambient) :
    (c.lineOf a seen).IsIntact ↔
      c.component.length < 3 ∨ Text.IsIntact (c.component.take 3) := by
  constructor
  · intro h
    rw [or_iff_not_imp_left]
    intro hlong
    obtain ⟨p, r, hline⟩ := exists_lineOf_eq hlevel a seen
    have hsplit : c.lineOf a seen = p ++ (0x5B :: Text.upper (c.component.take 3) ++ [0x5D]) ++
        (c.levelTag ((seen.find? levelKey).getD .null) ++ r) := by
      rw [hline, levelPart, componentTag_eq hcolour, if_neg hlong]
      simp only [List.append_assoc]
    rw [hsplit] at h
    exact Text.isIntact_upper_iff.mp (Text.isIntact_of_bracketed h)
  · intro h
    have htag := isIntact_componentTag hcolour h
    have hhead : (joinParts (c.parts.map (c.partText false a seen))).IsIntact := by
      apply Text.isSpelling_isIntact.join (by decide)
      intro t ht
      obtain ⟨part, -, rfl⟩ := List.mem_map.mp (List.mem_of_mem_filter ht)
      exact isIntact_partText hcolour hseen htag a part
    have htail : (Text.join [0x20] ((otherFields seen).map fun e => fieldText false e.1 e.2)).IsIntact := by
      apply Text.isSpelling_isIntact.join (by decide)
      intro t ht
      obtain ⟨e, he, rfl⟩ := List.mem_map.mp ht
      obtain ⟨hkey, hx⟩ := hseen e (mem_of_mem_otherFields he)
      exact isIntact_fieldText hkey hx
    have hspace (apart : Bool) : Text.IsIntact (if apart then [0x20] else []) := by
      cases apart <;> decide
    rw [lineOf]
    simp only [hcolour, Bool.not_true, Bool.false_and]
    exact ((hhead.append (hspace _)).append htail).append (by decide)

end

end Console

theorem Member.isIntact_members {ms : List Member} (hwritable : ∀ m ∈ ms, m.IsWritable)
    (hintact : ∀ m ∈ ms, ∀ t ∈ m.texts, t.IsIntact) :
    ∀ e ∈ Keyed.ofList (Json.canonicalMembers (ms.map Member.found)),
      e.1.IsIntact ∧ Finding.IsIntact e.2 := by
  have htexts : ∀ t ∈ (Json.object (ms.map Member.found)).canonical.texts, t.IsIntact := by
    intro t ht
    have hmem := Json.mem_texts_of_canonical ht
    rw [Json.texts, Json.membersTexts_eq, List.flatMap_map] at hmem
    obtain ⟨m, hm, hmem⟩ := List.mem_flatMap.mp hmem
    exact Member.isIntact_found (hintact m hm) t hmem
  have hnumbers : ∀ l ∈ (Json.object (ms.map Member.found)).canonical.numbers, l.WellFormed := by
    intro l hl
    exact (Draft.isDocument_close hwritable).wellFormed (Json.mem_numbers_of_canonical hl)
  intro e he
  obtain ⟨hkey, hvalue⟩ := Json.forall_of_mem_members htexts hnumbers he
  exact ⟨hkey, hvalue.1, hvalue.2⟩

namespace Logger

theorem isIntact_notice (e : Json.ReadError) : (notice e).IsIntact := by
  have hlead : Text.IsIntact (utf8 "zerolog: could not write event: cannot decode event: ") := by
    decide +kernel
  have hmessage := Text.isIntact_iff_madeOf.mpr (e.madeOf_message Text.includesLatin_intact)
  exact (hlead.append hmessage).append (by decide)

/-- An event of intact members gives an intact line just if the component is short or cut between two
characters, or if no line can be made of the event. -/
theorem isIntact_deliver_iff {l : Logger} {style : Console} (hform : l.form = .console style)
    (hcolour : style.noColor = true) (hlevel : .level ∈ style.parts) {ms : List Member}
    (hwritable : ∀ m ∈ ms, m.IsWritable) (hintact : ∀ m ∈ ms, ∀ t ∈ m.texts, t.IsIntact) (a : Ambient) :
    (l.deliver a (Draft.ofMembers ms).close).line.IsIntact ↔
      style.component.length < 3 ∨ Text.IsIntact (style.component.take 3) ∨
        Json.maxDepth < (Json.object (ms.map Member.found)).depth := by
  by_cases hdepth : Json.maxDepth < (Json.object (ms.map Member.found)).depth
  · obtain ⟨e, he⟩ := Console.membersOf_close_deep hwritable hdepth
    rw [deliver_notice hform he]
    exact iff_of_true (isIntact_notice e) (.inr (.inr hdepth))
  · have hseen := Console.membersOf_close hwritable (Nat.not_lt.mp hdepth)
    have hline : style.line a (Draft.ofMembers ms).close =
        .ok (style.lineOf a (Keyed.ofList (Json.canonicalMembers (ms.map Member.found)))) := by
      rw [Console.line, hseen]
      rfl
    rw [deliver_console hform hline, Console.isIntact_lineOf_iff hcolour
      (Member.isIntact_members hwritable hintact) hlevel, or_iff_left hdepth]

/-- The line of a call with intact texts, written for people and without colours, is intact just if the
name of the component is not cut in the middle of a character. Names of less than three bytes are not
shown, and an event that cannot be read again is replaced by a notice. -/
theorem log_console_intact (c : Config) (component : Text) (stream : Stream) (chain : List Derivation)
    (a : Ambient) (level : Level) (message : Text) (fields : List (Keyed Detail))
    (hformat : c.isConsole = true) (hcolour : c.noColor = true)
    (hlevel : level ∈ [Level.debug, Level.info, Level.warn, Level.error])
    (hlogger : Level.configured c.level ≤ level) (hleast : a.leastLevel ≤ level)
    (hchain : ∀ d ∈ chain, d.IsFinite) (hfields : ∀ fs ∈ fields, IsFiniteFields fs)
    (htexts : ∀ t ∈ component :: message :: (chain.flatMap Derivation.texts ++
      fields.flatMap Json.membersTexts), t.IsIntact)
    (hcaller : c.caller = true → a.caller.IsIntact) :
    ∃ w, ((ofConfig c component stream).deriveAll chain).log a level message fields = some w ∧
      (w.line.IsIntact ↔ component.length < 3 ∨ Text.IsIntact (component.take 3) ∨
        Json.maxDepth < (Json.object (lineMembers c component chain a level message fields)).depth) := by
  have hwritable := isWritable_recordOf c component stream a level message hchain hfields
  have hintact := isIntact_recordOf hlevel htexts hcaller stream
  have hevent := event_deriveAll c component stream a level message hchain hfields
  have hform : ((ofConfig c component stream).deriveAll chain).form = .console {
      noColor := c.noColor
      parts := (if c.timestamp then [.time] else []) ++ [.level, .caller, .message]
      component := component } := by
    rw [deriveAll_eq, ofConfig, hformat]
    rfl
  have hdelivered := isIntact_deliver_iff hform hcolour (List.mem_append_right _ List.mem_cons_self)
    hwritable hintact a
  rw [found_recordOf c component stream chain a hlevel message fields] at hdelivered
  refine ⟨_, log_eq_deliver hlevel (by rw [deriveAll_eq]; exact hlogger) hleast message fields, ?_⟩
  rw [hevent]
  exact hdelivered

/-- Derivations with letters outside ASCII, with controls and with a level of their own. -/
def accentedChain : List Derivation :=
  [.component (utf8 "größe"), .error (some (utf8 "naïve\x1b\n")),
    .fields [(utf8 "é", .array [.string (utf8 "…\x00"), .number (.int (-3))]),
      (utf8 "level", .string (utf8 "ŵ"))]]

def accentedConfig : Config := { format := utf8 "console", noColor := true, caller := true }

def accentedCall : Ambient := { now := { year := 2024, month := 1, day := 1 }, caller := utf8 "main:7" }

/-- The line of a call of a logger for a component. -/
def accentedLine (component : Text) : Option Write :=
  ((ofConfig accentedConfig component .stdout).deriveAll accentedChain).log accentedCall Level.warn
    (utf8 "über") [[(utf8 "ß", .null)]]

/-- Two letters in three bytes are shown as they are; of four bytes the last letter is cut. -/
theorem log_console_intact_accented :
    (∃ w, accentedLine (utf8 "éa") = some w ∧ w.line.IsIntact) ∧
      ∃ w, accentedLine (utf8 "aaé") = some w ∧ ¬w.line.IsIntact := by
  have hline (component : Text) (hcomponent : component.IsIntact) :=
    log_console_intact accentedConfig component .stdout accentedChain accentedCall Level.warn (utf8 "über")
      [[(utf8 "ß", .null)]] (by decide +kernel) rfl (by decide) (by decide +kernel) (by decide)
      (by decide +kernel) (by decide +kernel)
      (List.forall_mem_cons.mpr ⟨hcomponent, by decide +kernel⟩) (fun _ => by decide +kernel)
  obtain ⟨w, hw, hshown⟩ := hline (utf8 "éa") (by decide +kernel)
  obtain ⟨v, hv, hcut⟩ := hline (utf8 "aaé") (by decide +kernel)
  exact ⟨⟨w, hw, hshown.mpr (.inr (.inl (by decide +kernel)))⟩,
    v, hv, hcut.not.mpr (by decide +kernel)⟩

end Logger

end Log

end ServiceKit
