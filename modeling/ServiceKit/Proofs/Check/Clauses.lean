import Mathlib
import ServiceKit.Proofs.Check.Records
import ServiceKit.Proofs.Number.Reading
import ServiceKit.Proofs.Text.Utf8

/-!
Rules for texts, as tags write them down and by what they mean. A text that breaks a rule of a chain is
reported with the message of the first one, if each rule alone is applied as it is meant. So are all but
bounds that need more than 63 bits or start with a zero, and words that spell a comma or a bar by its
number.
-/

namespace ServiceKit.Check

variable {others : OtherTests}

/-! ### What is asked of a text -/

/-- A natural number in decimal digits. -/
structure DigitText where
  text : Text
  digits : Json.Digits text

def DigitText.value (n : DigitText) : Nat := Number.ofDigits n.text

def DigitText.ofNat (n : Nat) : DigitText := ⟨Number.decimal n, Number.digits_decimal n⟩

/-- The bytes that a word of a list of choices does not hold: blanks, the quote, comma and bar. -/
def wordBreaks : List UInt8 := [0x20, 0x09, 0x0A, 0x0C, 0x0D, 0x27, 0x2C, 0x7C]

structure Word where
  text : Text
  ne_nil : text ≠ []
  unbroken : ∀ b ∈ text, b ∉ wordBreaks

def Word.ofText (s : Text) (hne : s.isEmpty = false)
    (h : s.all (fun b => !wordBreaks.contains b) = true) : Word where
  text := s
  ne_nil := by simpa using hne
  unbroken := by simpa using h

inductive Demand where
  | required
  | min (n : DigitText)
  | max (n : DigitText)
  | oneOf (words : List Word)

namespace Demand

def isMet : Demand → Text → Bool
  | required, s => !s.isEmpty
  | min n, s => n.value ≤ s.glyphCount
  | max n, s => s.glyphCount ≤ n.value
  | oneOf words, s => (words.map Word.text).contains s

def message : Demand → Text
  | required => utf8 "is required"
  | min n => utf8 "must be at least " ++ n.text ++ utf8 " characters"
  | max n => utf8 "must be at most " ++ n.text ++ utf8 " characters"
  | oneOf words => utf8 "must be one of: " ++ Text.join [0x20] (words.map Word.text)

def name : Demand → Text
  | required => utf8 "required"
  | min _ => utf8 "min"
  | max _ => utf8 "max"
  | oneOf _ => utf8 "oneof"

def param? : Demand → Option Text
  | required => none
  | min n => some n.text
  | max n => some n.text
  | oneOf words => some (Text.join [0x20] (words.map Word.text))

/-- A demand as a tag writes it down. -/
def text (d : Demand) : Text :=
  match d.param? with
  | none => d.name
  | some p => d.name ++ 0x3D :: p

end Demand

/-- A link of a chain: something that is asked, or that nothing more is asked of an empty text. -/
inductive Link where
  | omitEmpty
  | demand (d : Demand)

def Link.text : Link → Text
  | omitEmpty => utf8 "omitempty"
  | demand d => d.text

def chainText (links : List Link) : Text := Text.join [0x2C] (links.map Link.text)

/-- The first demand of a chain that a text does not meet. -/
def violated? : List Link → Text → Option Demand
  | [], _ => none
  | .omitEmpty :: rest, s => if s = [] then none else violated? rest s
  | .demand d :: rest, s => if d.isMet s then violated? rest s else some d

/-! ### How demands are read -/

namespace Demand

def test : Demand → Test
  | required => .required
  | min _ => .size .atLeast
  | max _ => .size .atMost
  | oneOf _ => .oneOf

/-- The test that a demand is read as. -/
def reading (d : Demand) : NamedTest := ⟨d.test, d.name, d.param?.map paramText⟩

theorem not_mem_digits {n : DigitText} {b : UInt8} (hb : Text.isDigit b = false) : b ∉ n.text := by
  intro hmem
  rw [n.digits.2 b hmem] at hb
  cases hb

theorem not_mem_words {words : List Word} {b : UInt8} (hb : b ∈ wordBreaks) (hblank : b ≠ 0x20) :
    b ∉ Text.join [0x20] (words.map Word.text) := by
  apply Text.not_mem_join
  · rwa [List.mem_singleton]
  · intro w hw
    obtain ⟨word, -, rfl⟩ := List.mem_map.mp hw
    intro hmem
    exact word.unbroken b hmem hb

theorem not_mem_text (d : Demand) {b : UInt8} (hb : b = 0x2C ∨ b = 0x7C) : b ∉ d.text := by
  have hbreak : b ∈ wordBreaks ∧ b ≠ 0x20 ∧ Text.isDigit b = false ∧ b ≠ 0x3D ∧
      b ∉ utf8 "required" ∧ b ∉ utf8 "min" ∧ b ∉ utf8 "max" ∧ b ∉ utf8 "oneof" := by
    rcases hb with rfl | rfl <;> decide
  obtain ⟨hbreak, hblank, hdigit, hequals, hrequired, hmin, hmax, honeOf⟩ := hbreak
  have happend {name p : Text} (hname : b ∉ name) (hp : b ∉ p) : b ∉ name ++ 0x3D :: p := by
    rw [List.mem_append, List.mem_cons, not_or, not_or]
    exact ⟨hname, hequals, hp⟩
  cases d with
  | required => exact hrequired
  | min n => exact happend hmin (not_mem_digits hdigit)
  | max n => exact happend hmax (not_mem_digits hdigit)
  | oneOf words => exact happend honeOf (not_mem_words hbreak hblank)

theorem ofText_param (name : Text) {test : Test} (hname : 0x3D ∉ name) (hempty : name.isEmpty = false)
    (hfind : tests.find? (fun t => t.1 == name) = some (name, test)) (field p : Text) :
    NamedTest.ofText others field (name ++ 0x3D :: p) = .ok ⟨test, name, some (paramText p)⟩ := by
  rw [NamedTest.ofText, Text.cut?_append hname]
  simp only [hempty, hfind]
  rfl

theorem namedTest_ofText (field : Text) (d : Demand) :
    NamedTest.ofText others field d.text = .ok d.reading := by
  cases d with
  | required => rfl
  | min n => exact ofText_param (utf8 "min") (by decide) rfl rfl field n.text
  | max n => exact ofText_param (utf8 "max") (by decide) rfl rfl field n.text
  | oneOf words => exact ofText_param (utf8 "oneof") (by decide) rfl rfl field _

theorem rule_ofText (field : Text) (d : Demand) :
    Rule.ofText others field d.text = .ok (.test d.reading) := by
  have hother : d.text ≠ utf8 "omitempty" ∧ d.text ≠ utf8 "dive" := by
    have hequals {name p w : Text} (hw : 0x3D ∉ w) : name ++ 0x3D :: p ≠ w := by
      rintro rfl
      exact hw (List.mem_append_right _ List.mem_cons_self)
    cases d with
    | required => decide
    | _ => exact ⟨hequals (by decide), hequals (by decide)⟩
  rw [Rule.ofText, if_neg hother.1, if_neg hother.2,
    Text.split_eq_singleton (d.not_mem_text (.inr rfl)), List.mapM_cons, namedTest_ofText]
  rfl

theorem chainOf_text (field : Text) (d : Demand) :
    chainOf others field d.text = .ok [.test d.reading] := by
  have hempty : d.text.isEmpty = false := by cases d <;> rfl
  rw [chainOf, if_neg (by simp [hempty]), Text.split_eq_singleton (d.not_mem_text (.inl rfl)),
    List.mapM_cons, rule_ofText]
  rfl

/-! ### Demands that are applied as they are meant -/

/-- A tag that writes down the demand alone accepts the texts that meet it and no others. -/
def IsApplied (others : OtherTests) (d : Demand) : Prop :=
  ∀ field s,
    (chainOf others field d.text >>= fun chain =>
      checkLeaf others [] field false chain (.string s)) = .ok [] ↔ d.isMet s = true

theorem isApplied_iff (d : Demand) :
    d.IsApplied others ↔
      ∀ s, d.reading.passes others false (.string s) = .ok true ↔ d.isMet s = true := by
  have hchecked (field s : Text) :
      (chainOf others field d.text >>= fun chain =>
        checkLeaf others [] field false chain (.string s)) = .ok [] ↔
        d.reading.passes others false (.string s) = .ok true := by
    rw [chainOf_text]
    change checkLeaf others [] field false [.test d.reading] (.string s) = .ok [] ↔ _
    cases hpasses : d.reading.passes others false (.string s) with
    | error e =>
        rw [checkLeaf, runChain, hpasses]
        constructor <;> intro h <;> cases h
    | ok b =>
        rw [checkLeaf_test [] field d.reading [] hpasses]
        cases b <;> simp [checkLeaf, runChain, bind, Except.bind]
  constructor
  · intro h s
    rw [← hchecked [] s]
    exact h [] s
  · intro h field s
    rw [hchecked]
    exact h s

theorem isApplied_of_passes {d : Demand}
    (h : ∀ s, d.reading.passes others false (.string s) = .ok (d.isMet s)) : d.IsApplied others := by
  rw [isApplied_iff]
  intro s
  rw [h s, Except.ok.injEq]

theorem isApplied_required : required.IsApplied others := isApplied_of_passes fun s => by cases s <;> rfl

/-- A demand that cannot be read is one that some text meets. -/
theorem passes_cases (d : Demand) :
    (∀ s, ∃ b, d.reading.passes others false (.string s) = .ok b) ∨
      (∃ s, d.isMet s = true) ∧ ∀ s, ∃ e, d.reading.passes others false (.string s) = .error e := by
  have hsize {how : Comparison} {name param : Text} :
      (∀ s, ∃ b, (⟨.size how, name, some param⟩ : NamedTest).passes others false (.string s) = .ok b) ∨
        ∀ s, ∃ e,
          (⟨.size how, name, some param⟩ : NamedTest).passes others false (.string s) = .error e := by
    cases hparam : integerParam param with
    | ok i => exact .inl fun s => ⟨_, by simp [NamedTest.passes, hparam, bind, Except.bind]; rfl⟩
    | error e => exact .inr fun s => ⟨e, by simp [NamedTest.passes, hparam, bind, Except.bind]⟩
  cases d with
  | required => exact .inl fun s => ⟨_, rfl⟩
  | oneOf words => exact .inl fun s => ⟨_, rfl⟩
  | min n =>
      refine hsize.imp_right fun h => ⟨⟨Text.ofChars (List.replicate n.value 'a'), ?_⟩, h⟩
      simp [isMet, Text.glyphCount, Text.glyphs_ofChars]
  | max n =>
      refine hsize.imp_right fun h => ⟨⟨[], ?_⟩, h⟩
      simp [isMet, Text.glyphCount, Text.glyphs, Glyph.readFrom]

theorem IsApplied.passes {d : Demand} (h : d.IsApplied others) (s : Text) :
    d.reading.passes others false (.string s) = .ok (d.isMet s) := by
  have hmet := d.isApplied_iff.mp h
  rcases d.passes_cases with hok | ⟨⟨t, ht⟩, herror⟩
  · obtain ⟨b, hb⟩ := hok s
    rw [hb, Except.ok.injEq, Bool.eq_iff_iff, ← hmet s, hb, Except.ok.injEq]
  · obtain ⟨e, he⟩ := herror t
    rw [(hmet t).mpr ht] at he
    cases he

end Demand

/-! ### Parameters -/

section Replacing

variable {old : Text} {new b : UInt8}

theorem replaceWith_of_not_mem (hb : b ∈ old) {s : Text} (hs : b ∉ s) (fuel : Nat) :
    replaceWith old new fuel s = s := by
  induction fuel generalizing s with
  | zero => rfl
  | succ fuel ih =>
      cases s with
      | nil => rfl
      | cons a s =>
          rw [replaceWith]
          split
          · rename_i rest hrest
            rw [Text.dropLead?_eq_some.mp hrest] at hs
            exact absurd (List.mem_append_left rest hb) hs
          · rw [ih fun h => hs (List.mem_cons_of_mem a h)]

/-- A text that is changed shows the byte that is put in. -/
theorem replaceWith_eq_or_mem (old : Text) (new : UInt8) (fuel : Nat) (s : Text) :
    replaceWith old new fuel s = s ∨ new ∈ replaceWith old new fuel s := by
  induction fuel generalizing s with
  | zero => exact .inl rfl
  | succ fuel ih =>
      cases s with
      | nil => exact .inl rfl
      | cons a s =>
          rw [replaceWith]
          split
          · exact .inr List.mem_cons_self
          · exact (ih s).imp (congrArg (a :: ·)) (List.mem_cons_of_mem a)

theorem mem_replaceWith (hb : b ∉ old) (fuel : Nat) {s : Text} (hs : b ∈ s) :
    b ∈ replaceWith old new fuel s := by
  induction fuel generalizing s with
  | zero => exact hs
  | succ fuel ih =>
      cases s with
      | nil => cases hs
      | cons a s =>
          rw [replaceWith]
          split
          · rename_i rest hrest
            rw [Text.dropLead?_eq_some.mp hrest] at hs
            exact List.mem_cons_of_mem _ (ih ((List.mem_append.mp hs).resolve_left hb))
          · rcases List.mem_cons.mp hs with rfl | hs
            · exact List.mem_cons_self
            · exact List.mem_cons_of_mem a (ih hs)

theorem mem_of_mem_replaceWith (fuel : Nat) {s : Text} (h : b ∈ replaceWith old new fuel s) :
    b = new ∨ b ∈ s := by
  induction fuel generalizing s with
  | zero => exact .inr h
  | succ fuel ih =>
      cases s with
      | nil => exact .inr h
      | cons a s =>
          rw [replaceWith] at h
          split at h
          · rename_i rest hrest
            rw [Text.dropLead?_eq_some.mp hrest, List.mem_append]
            rcases List.mem_cons.mp h with h | h
            · exact .inl h
            · exact (ih h).imp_right .inr
          · rcases List.mem_cons.mp h with rfl | h
            · exact .inr List.mem_cons_self
            · exact (ih h).imp_right (List.mem_cons_of_mem a)

end Replacing

theorem paramText_of_not_mem {s : Text} (h : 0x78 ∉ s) : paramText s = s := by
  rw [paramText, replaceWith_of_not_mem (by decide) h, replaceWith_of_not_mem (by decide) h]

theorem paramText_eq_or_mem (s : Text) : paramText s = s ∨ 0x2C ∈ paramText s ∨ 0x7C ∈ paramText s := by
  rw [paramText]
  rcases replaceWith_eq_or_mem (utf8 "0x2C") 0x2C (s.length + 1) s with h | h
  · rw [h]
    exact (replaceWith_eq_or_mem _ _ _ s).imp_right .inr
  · exact .inr (.inl (mem_replaceWith (by decide) _ h))

theorem mem_of_mem_paramText {s : Text} {b : UInt8} (h : b ∈ paramText s) :
    b = 0x2C ∨ b = 0x7C ∨ b ∈ s := by
  rcases mem_of_mem_replaceWith _ h with h | h
  · exact .inr (.inl h)
  · exact (mem_of_mem_replaceWith _ h).imp_right .inr

/-- What divides the words of a list of choices. -/
abbrev isBlank (b : UInt8) : Bool := b == 0x20 || b == 0x09 || b == 0x0A || b == 0x0C || b == 0x0D

theorem choices_of_unquoted {fuel : Nat} {s rest : Text} {a : UInt8} (hs : s.dropWhile isBlank = a :: rest)
    (ha : a ≠ 0x27) :
    choices (fuel + 1) s = ((a :: rest).takeWhile (!isBlank ·)).filter (· != 0x27) ::
      choices fuel ((a :: rest).dropWhile (!isBlank ·)) := by
  rw [choices, hs]
  simp only [if_neg ha]

/-- Without quotes, what is not a blank gets into a word. -/
theorem exists_mem_choices {b : UInt8} (hb : isBlank b = false) {fuel : Nat} {s : Text}
    (hfuel : s.length < fuel) (hquote : 0x27 ∉ s) (hs : b ∈ s) : ∃ w ∈ choices fuel s, b ∈ w := by
  induction fuel generalizing s with
  | zero => exact absurd hfuel (Nat.not_lt_zero _)
  | succ fuel ih =>
      have hfound : b ∈ s.dropWhile isBlank := by
        rw [← List.takeWhile_append_dropWhile (p := isBlank) (l := s), List.mem_append] at hs
        apply hs.resolve_left
        intro hmem
        rw [List.mem_takeWhile_imp hmem] at hb
        cases hb
      obtain ⟨a, rest, hdrop⟩ := List.exists_cons_of_ne_nil (List.ne_nil_of_mem hfound)
      have hsub : (a :: rest).Sublist s := hdrop ▸ List.dropWhile_sublist isBlank
      have ha : isBlank a = false := by
        have hhead := List.head?_dropWhile_not isBlank s
        rw [hdrop] at hhead
        exact hhead
      rw [choices_of_unquoted hdrop fun h => hquote (hsub.mem (h ▸ List.mem_cons_self))]
      rw [hdrop, ← List.takeWhile_append_dropWhile (p := (!isBlank ·)) (l := a :: rest),
        List.mem_append] at hfound
      rcases hfound with hword | hlater
      · have hother : b ≠ 0x27 := by
          rintro rfl
          exact hquote hs
        exact ⟨_, List.mem_cons_self, List.mem_filter.mpr ⟨hword, bne_iff_ne.mpr hother⟩⟩
      · have hshort : ((a :: rest).dropWhile (!isBlank ·)).length < fuel := by
          rw [List.dropWhile_cons_of_pos (by simp [ha])]
          have hrest := (List.dropWhile_sublist (!isBlank ·) (l := rest)).length_le
          have hwhole := hsub.length_le
          rw [List.length_cons] at hwhole
          omega
        have hunquoted : 0x27 ∉ (a :: rest).dropWhile fun x => !isBlank x :=
          fun h => hquote (hsub.mem ((List.dropWhile_sublist _).mem h))
        obtain ⟨w, hw, hbw⟩ := ih hshort hunquoted hlater
        exact ⟨w, List.mem_cons_of_mem _ hw, hbw⟩

theorem choices_nil (fuel : Nat) : choices fuel [] = [] := by
  cases fuel <;> rfl

theorem choices_blank {b : UInt8} (hb : isBlank b = true) (fuel : Nat) (s : Text) :
    choices fuel (b :: s) = choices fuel s := by
  cases fuel with
  | zero => rfl
  | succ fuel =>
      have hdrop : (b :: s).dropWhile isBlank = s.dropWhile isBlank := List.dropWhile_cons_of_pos hb
      rw [choices, hdrop, choices]

theorem Word.not_isBlank (w : Word) {b : UInt8} (hb : b ∈ w.text) : isBlank b = false ∧ b ≠ 0x27 := by
  have hbreak := w.unbroken b hb
  simp only [wordBreaks, List.mem_cons, List.not_mem_nil, not_or] at hbreak
  obtain ⟨h1, h2, h3, h4, h5, hquote, -⟩ := hbreak
  exact ⟨by simp [isBlank, h1, h2, h3, h4, h5], hquote⟩

/-- A word is taken from the front up to a blank. -/
theorem choices_word (w : Word) (tail : Text) (htail : ∀ b ∈ tail.head?, isBlank b = true) (fuel : Nat) :
    choices (fuel + 1) (w.text ++ tail) = w.text :: choices fuel tail := by
  have hword : ∀ b ∈ w.text, (!isBlank b) = true := fun b hb => by rw [(w.not_isBlank hb).1]; rfl
  have htake : tail.takeWhile (!isBlank ·) = [] ∧ tail.dropWhile (!isBlank ·) = tail := by
    cases tail with
    | nil => exact ⟨rfl, rfl⟩
    | cons b tail =>
        have hb : ¬(!isBlank b) = true := by simp [htail b rfl]
        exact ⟨List.takeWhile_cons_of_neg hb, List.dropWhile_cons_of_neg hb⟩
  obtain ⟨a, rest, hfirst⟩ := List.exists_cons_of_ne_nil w.ne_nil
  have hmem : a ∈ w.text := hfirst ▸ List.mem_cons_self
  obtain ⟨hblank, hquote⟩ := w.not_isBlank hmem
  have hdrop : (w.text ++ tail).dropWhile isBlank = a :: (rest ++ tail) := by
    rw [hfirst, List.cons_append, List.dropWhile_cons_of_neg (by simp [hblank])]
  have hwhole : a :: (rest ++ tail) = w.text ++ tail := by rw [hfirst, List.cons_append]
  rw [choices_of_unquoted hdrop hquote, hwhole, List.takeWhile_append_of_pos hword,
    List.dropWhile_append_of_pos hword, htake.1, htake.2, List.append_nil, List.filter_eq_self.mpr]
  intro b hb
  exact bne_iff_ne.mpr (w.not_isBlank hb).2

/-- Words with a blank between them are the choices. -/
theorem choices_join (words : List Word) {fuel : Nat}
    (hfuel : (Text.join [0x20] (words.map Word.text)).length < fuel) :
    choices fuel (Text.join [0x20] (words.map Word.text)) = words.map Word.text := by
  induction words generalizing fuel with
  | nil => exact choices_nil fuel
  | cons w words ih =>
      obtain ⟨fuel, rfl⟩ := Nat.exists_eq_add_one_of_ne_zero (Nat.ne_zero_of_lt hfuel)
      cases words with
      | nil =>
          have hone := choices_word w [] (by simp) fuel
          rwa [List.append_nil, choices_nil] at hone
      | cons v words =>
          rw [List.map_cons, List.map_cons, Text.join_cons_cons, ← List.map_cons] at hfuel ⊢
          rw [List.append_assoc, List.singleton_append] at hfuel ⊢
          rw [choices_word w _ (by simp [isBlank]), choices_blank rfl, ih]
          rw [List.length_append, List.length_cons] at hfuel
          have hpos := List.length_pos_of_ne_nil w.ne_nil
          omega

/-! ### Demands that are applied -/

namespace Demand

theorem integerParam_paramText {n : DigitText} (h : Number.IsWhole n.text)
    (hlt : n.value < Number.pow2 63) : integerParam (paramText n.text) = .ok n.value := by
  rw [paramText_of_not_mem (not_mem_digits rfl), integerParam, Number.integerOf_whole h hlt]
  rfl

theorem isApplied_min {n : DigitText} (h : Number.IsWhole n.text) (hlt : n.value < Number.pow2 63) :
    (min n).IsApplied others := by
  apply isApplied_of_passes
  intro s
  change (integerParam (paramText n.text) >>= fun i => Except.ok (decide (i ≤ s.glyphCount))) = _
  rw [integerParam_paramText h hlt]
  exact congrArg Except.ok (decide_eq_decide.mpr Int.ofNat_le)

theorem isApplied_max {n : DigitText} (h : Number.IsWhole n.text) (hlt : n.value < Number.pow2 63) :
    (max n).IsApplied others := by
  apply isApplied_of_passes
  intro s
  change (integerParam (paramText n.text) >>= fun i => Except.ok (decide ((s.glyphCount : Int) ≤ i))) = _
  rw [integerParam_paramText h hlt]
  exact congrArg Except.ok (decide_eq_decide.mpr Int.ofNat_le)

/-- Words that do not write down a comma or a bar by its number are the choices. -/
theorem isApplied_oneOf {words : List Word}
    (h : paramText (Text.join [0x20] (words.map Word.text)) = Text.join [0x20] (words.map Word.text)) :
    (oneOf words).IsApplied others := by
  apply isApplied_of_passes
  intro s
  change Except.ok ((choices ((paramText (Text.join [0x20] (words.map Word.text))).length + 1)
    (paramText (Text.join [0x20] (words.map Word.text)))).contains s) = _
  rw [h, choices_join words (Nat.lt_succ_self _)]
  rfl

end Demand

/-- Only a comma or a bar can come into a parameter, and no word of the demand has one. -/
theorem Demand.IsApplied.param_eq {d : Demand} (h : d.IsApplied others) :
    d.reading.param.getD [] = d.param?.getD [] := by
  cases d with
  | required => rfl
  | min n => exact paramText_of_not_mem (not_mem_digits rfl)
  | max n => exact paramText_of_not_mem (not_mem_digits rfl)
  | oneOf words =>
      apply (paramText_eq_or_mem _).resolve_right
      intro hmem
      obtain ⟨b, hbreak, hblank, hparam⟩ : ∃ b ∈ wordBreaks, isBlank b = false ∧
          b ∈ paramText (Text.join [0x20] (words.map Word.text)) := by
        rcases hmem with hmem | hmem
        · exact ⟨0x2C, by decide, rfl, hmem⟩
        · exact ⟨0x7C, by decide, rfl, hmem⟩
      have hquote : 0x27 ∉ paramText (Text.join [0x20] (words.map Word.text)) := by
        intro hmem
        rcases mem_of_mem_paramText hmem with h | h | h
        · exact absurd h (by decide)
        · exact absurd h (by decide)
        · exact not_mem_words (by decide) (by decide) h
      obtain ⟨w, hchoice, hw⟩ := exists_mem_choices hblank (Nat.lt_succ_self _) hquote hparam
      have hmet : (oneOf words).isMet w = true := by
        rw [← Except.ok.injEq, ← h.passes w]
        exact congrArg Except.ok (List.contains_iff_mem.mpr hchoice)
      obtain ⟨word, -, rfl⟩ := List.mem_map.mp (List.contains_iff_mem.mp hmet)
      exact word.unbroken b hw hbreak

theorem Demand.ruleMessage_eq (d : Demand) : ruleMessage d.name (d.param?.getD []) = d.message := by
  cases d <;> rfl

/-! ### Chains -/

def Link.rule : Link → Rule
  | omitEmpty => .omitEmpty
  | demand d => .test d.reading

/-- What a link asks is applied as it is meant. -/
def Link.IsApplied (others : OtherTests) : Link → Prop
  | omitEmpty => True
  | demand d => d.IsApplied others

theorem Link.ofText_text (field : Text) (l : Link) : Rule.ofText others field l.text = .ok l.rule := by
  cases l with
  | omitEmpty => rfl
  | demand d => exact d.rule_ofText field

theorem Link.not_mem_text (l : Link) : 0x2C ∉ l.text := by
  cases l with
  | omitEmpty => decide
  | demand d => exact d.not_mem_text (.inl rfl)

theorem Link.text_ne (l : Link) : l.text ≠ [] ∧ l.text ≠ [0x2D] := by
  have hhead {b : UInt8} {s : Text} (hb : b ≠ 0x2D) : b :: s ≠ [] ∧ b :: s ≠ [0x2D] :=
    ⟨List.cons_ne_nil b s, fun h => hb (List.cons.inj h).1⟩
  cases l with
  | omitEmpty => exact hhead (by decide)
  | demand d => cases d <;> exact hhead (by decide)

theorem split_chainText {links : List Link} (h : links ≠ []) :
    Text.split 0x2C (chainText links) = links.map Link.text := by
  apply Text.split_join
  · simpa using h
  · intro w hw
    obtain ⟨l, -, rfl⟩ := List.mem_map.mp hw
    exact l.not_mem_text

theorem chainText_ne {links : List Link} (hlinks : links ≠ []) {t : Text} (ht : 0x2C ∉ t)
    (h : ∀ l : Link, l.text ≠ t) : chainText links ≠ t := by
  intro heq
  have hsplit := split_chainText hlinks
  rw [heq, Text.split_eq_singleton ht] at hsplit
  obtain ⟨l, -, hl⟩ := List.mem_map.mp (hsplit ▸ List.mem_singleton_self t)
  exact h l hl

theorem chainOf_chainText (field : Text) (links : List Link) :
    chainOf others field (chainText links) = .ok (links.map Link.rule) := by
  by_cases hlinks : links = []
  · subst hlinks
    rfl
  · have hne := chainText_ne hlinks List.not_mem_nil fun l => l.text_ne.1
    rw [chainOf, if_neg (by simpa using hne), split_chainText hlinks]
    exact mapM_map_ok fun l _ => l.ofText_text field

theorem fieldChain_chainText {f : Field} (hpublic : f.isPrivate = false) {links : List Link}
    (h : tagText "validate" f.tag = chainText links) :
    fieldChain others f = .ok (some (links.map Link.rule)) := by
  have hdash : chainText links ≠ [0x2D] := by
    by_cases hlinks : links = []
    · subst hlinks
      decide
    · exact chainText_ne hlinks (by decide) fun l => l.text_ne.2
  rw [fieldChain, h, hpublic]
  simp only [Bool.false_or, decide_eq_true_eq, if_neg hdash, chainOf_chainText]
  rfl

theorem checkLeaf_links {links : List Link} (h : ∀ l ∈ links, l.IsApplied others) (space name s : Text) :
    checkLeaf others space name false (links.map Link.rule) (.string s) =
      .ok ((violated? links s).toList.map fun d => ⟨pathAt space [name], d.message⟩) := by
  induction links with
  | nil => rfl
  | cons l links ih =>
      obtain ⟨hl, hlinks⟩ := List.forall_mem_cons.mp h
      have hrest := ih hlinks
      cases l with
      | omitEmpty =>
          rw [List.map_cons, Link.rule, checkLeaf_omitEmpty, violated?, hrest]
          split <;> rfl
      | demand d =>
          have hd : d.IsApplied others := hl
          rw [List.map_cons, Link.rule, checkLeaf_test space name d.reading _ (hd.passes s), violated?,
            hrest, hd.param_eq]
          split
          · rfl
          · change Except.ok [(⟨_, ruleMessage d.name _⟩ : FieldError)] = _
            rw [d.ruleMessage_eq]
            rfl

end ServiceKit.Check
