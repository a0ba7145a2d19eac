import Mathlib
import ServiceKit.Proofs.Json.Grammar

/-!
Reading of tokens. Each reader takes from a text exactly what the grammar allows at its start, as much
of it as there is, and gives back the rest.
-/

namespace ServiceKit.Json

/-! ### Blanks and words -/

theorem isBlank_iff {b : UInt8} : isBlank b = true ↔ b = 0x20 ∨ b = 0x09 ∨ b = 0x0A ∨ b = 0x0D := by
  simp [isBlank, or_assoc]

/-- What is skipped is blank. -/
theorem exists_skipBlanks (s : Text) : ∃ w, s = w ++ skipBlanks s ∧ Blanks w :=
  ⟨s.takeWhile isBlank, List.takeWhile_append_dropWhile.symm,
    fun _ hb => isBlank_iff.mp (List.mem_takeWhile_imp hb)⟩

@[simp] theorem skipBlanks_nil : skipBlanks [] = [] := rfl

theorem skipBlanks_append {w : Text} (hw : Blanks w) (s : Text) : skipBlanks (w ++ s) = skipBlanks s :=
  List.dropWhile_append_of_pos fun b hb => isBlank_iff.mpr (hw b hb)

theorem skipBlanks_cons {b : UInt8} (h : isBlank b = false) (s : Text) :
    skipBlanks (b :: s) = b :: s := by
  rw [skipBlanks, List.dropWhile_cons, if_neg (by simp [h])]

theorem skipBlanks_blanks_cons {w : Text} (hw : Blanks w) {b : UInt8} (hb : isBlank b = false)
    (s : Text) : skipBlanks (w ++ b :: s) = b :: s := by
  rw [skipBlanks_append hw, skipBlanks_cons hb]

theorem readWord_ok {word : Word} {ds s rest : Text} (h : readWord word ds s = .ok rest) :
    s = ds ++ rest := by
  fun_induction readWord word ds s with
  | case1 s => exact Except.ok.inj h
  | case2 b bs s ih => rw [ih h, List.cons_append]
  | case3 => cases h
  | case4 => cases h

theorem readWord_append (word : Word) (ds rest : Text) : readWord word ds (ds ++ rest) = .ok rest := by
  induction ds with
  | nil => rfl
  | cons b ds ih => rw [List.cons_append, readWord, if_pos rfl, ih]

/-! ### Numbers -/

/-- The text of an optional fraction. -/
def fractionText : Option Text → Text
  | some ds => 0x2E :: ds
  | none => []

/-- The text of an optional exponent. -/
def exponentText : Option (Text × Text) → Text
  | some (mark, ds) => mark ++ ds
  | none => []

/-- The literal without its sign. -/
def Literal.unsigned (l : Literal) : Text := l.whole ++ (fractionText l.fraction ++ exponentText l.exponent)

theorem Literal.text_eq (l : Literal) :
    l.text = (if l.negative then [0x2D] else []) ++ l.unsigned := by
  obtain ⟨negative, whole, fraction, exponent⟩ := l
  cases fraction <;> cases exponent <;>
    simp [Literal.text, Literal.unsigned, fractionText, exponentText]

theorem isBlank_of_isDigit {b : UInt8} (h : Text.isDigit b = true) : isBlank b = false := by
  rw [Bool.eq_false_iff]
  intro hb
  rcases isBlank_iff.mp hb with rfl | rfl | rfl | rfl <;> exact absurd h (by decide)

/-- A literal without its sign starts with a digit. -/
theorem Literal.WellFormed.exists_digit {l : Literal} (hl : l.WellFormed) :
    ∃ b s, l.unsigned = b :: s ∧ Text.isDigit b = true := by
  obtain ⟨b, ds, hb⟩ := List.exists_cons_of_ne_nil hl.whole.1
  exact ⟨b, _, by rw [Literal.unsigned, hb]; rfl, hl.whole.2 b (hb ▸ List.mem_cons_self)⟩

/-- A text that can follow a value: it is empty or starts with a blank, a comma or a closing bracket. -/
def Closes (s : Text) : Prop :=
  ∀ b, s.head? = some b → b ∈ ([0x20, 0x09, 0x0A, 0x0D, 0x2C, 0x5D, 0x7D] : List UInt8)

theorem closes_nil : Closes [] := fun _ h => nomatch h

theorem Closes.append {w s : Text} (hw : Blanks w) (hs : Closes s) : Closes (w ++ s) := by
  cases w with
  | nil => exact hs
  | cons b w =>
      intro c hc
      obtain rfl := Option.some.inj hc
      rcases hw b List.mem_cons_self with rfl | rfl | rfl | rfl <;> decide

/-- No number goes on in what can follow a value. -/
theorem Closes.not_number {s : Text} (h : Closes s) {b : UInt8} (hb : s.head? = some b) :
    Text.isDigit b = false ∧ b ≠ 0x2E ∧ b ≠ 0x65 ∧ b ≠ 0x45 := by
  have hall : ∀ c ∈ ([0x20, 0x09, 0x0A, 0x0D, 0x2C, 0x5D, 0x7D] : List UInt8),
      Text.isDigit c = false ∧ c ≠ 0x2E ∧ c ≠ 0x65 ∧ c ≠ 0x45 := by decide +kernel
  exact hall b (h b hb)

theorem readDigits_ok {place : Place} {s ds rest : Text} (h : readDigits place s = .ok (ds, rest)) :
    s = ds ++ rest ∧ Digits ds := by
  unfold readDigits at h
  split at h
  · cases h
  · rename_i hne
    obtain ⟨rfl, rfl⟩ := Prod.mk.inj (Except.ok.inj h)
    exact ⟨List.takeWhile_append_dropWhile.symm, hne, fun _ hb => List.mem_takeWhile_imp hb⟩

theorem readDigits_append {place : Place} {ds rest : Text} (hds : Digits ds)
    (hrest : ∀ b, rest.head? = some b → Text.isDigit b = false) :
    readDigits place (ds ++ rest) = .ok (ds, rest) := by
  have htake : rest.takeWhile Text.isDigit = [] ∧ rest.dropWhile Text.isDigit = rest := by
    cases rest with
    | nil => exact ⟨rfl, rfl⟩
    | cons b rest => simp [hrest b rfl]
  have hall : ∀ b ∈ ds, Text.isDigit b = true := hds.2
  unfold readDigits
  rw [List.takeWhile_append_of_pos hall, List.dropWhile_append_of_pos hall, htake.1, htake.2,
    List.append_nil]
  split
  · exact absurd rfl hds.1
  · rfl

theorem readWhole_ok {s ds rest : Text} (h : readWhole s = .ok (ds, rest)) :
    s = ds ++ rest ∧ Digits ds ∧ (ds.head? = some 0x30 → ds = [0x30]) := by
  unfold readWhole at h
  split at h
  · obtain ⟨rfl, rfl⟩ := Prod.mk.inj (Except.ok.inj h)
    exact ⟨rfl, ⟨List.cons_ne_nil _ _, by decide +kernel⟩, fun _ => rfl⟩
  · rename_i hzero
    obtain ⟨rfl, hds⟩ := readDigits_ok h
    refine ⟨rfl, hds, fun hhead => ?_⟩
    obtain ⟨ds', rfl⟩ := List.head?_eq_some_iff.mp hhead
    exact absurd rfl (hzero _)

theorem readWhole_append {ds rest : Text} (hds : Digits ds)
    (hzero : ds.head? = some 0x30 → ds = [0x30])
    (hrest : ∀ b, rest.head? = some b → Text.isDigit b = false) :
    readWhole (ds ++ rest) = .ok (ds, rest) := by
  unfold readWhole
  split
  · rename_i t ht
    obtain ⟨b, ds, rfl⟩ := List.exists_cons_of_ne_nil hds.1
    obtain ⟨rfl, rfl⟩ := List.cons.inj ht
    obtain rfl : ds = [] := (List.cons.inj (hzero rfl)).2
    rfl
  · exact readDigits_append hds hrest

theorem readFraction_ok {s rest : Text} {fraction : Option Text}
    (h : readFraction s = .ok (fraction, rest)) :
    s = fractionText fraction ++ rest ∧ ∀ ds, fraction = some ds → Digits ds := by
  unfold readFraction at h
  split at h
  · split at h
    · rename_i hread
      obtain ⟨rfl, rfl⟩ := Prod.mk.inj (Except.ok.inj h)
      obtain ⟨rfl, hds⟩ := readDigits_ok hread
      exact ⟨rfl, fun _ h => Option.some.inj h ▸ hds⟩
    · cases h
  · obtain ⟨rfl, rfl⟩ := Prod.mk.inj (Except.ok.inj h)
    exact ⟨rfl, fun _ h => nomatch h⟩

theorem readFraction_append {fraction : Option Text} {rest : Text}
    (hds : ∀ ds, fraction = some ds → Digits ds)
    (hdigit : ∀ b, rest.head? = some b → Text.isDigit b = false) (hpoint : rest.head? ≠ some 0x2E) :
    readFraction (fractionText fraction ++ rest) = .ok (fraction, rest) := by
  cases fraction with
  | some ds => simp [fractionText, readFraction, readDigits_append (hds ds rfl) hdigit]
  | none =>
      unfold readFraction
      split
      · rename_i h
        exact absurd (congrArg List.head? h) hpoint
      · rfl

theorem exponentMark_some {s mark rest : Text} (h : exponentMark s = some (mark, rest)) :
    s = mark ++ rest ∧ mark ∈ exponentMarks := by
  unfold exponentMark at h
  split at h
  · split at h
    · rename_i hb
      split at h <;> obtain ⟨rfl, rfl⟩ := Prod.mk.inj (Option.some.inj h) <;>
        rcases hb with rfl | rfl <;> exact ⟨rfl, by decide⟩
    · cases h
  · cases h

theorem exponentMark_append {mark ds rest : Text} (hmark : mark ∈ exponentMarks) (hds : Digits ds) :
    exponentMark (mark ++ (ds ++ rest)) = some (mark, ds ++ rest) := by
  obtain ⟨d, ds, rfl⟩ := List.exists_cons_of_ne_nil hds.1
  have hd : Text.isDigit d = true := hds.2 d List.mem_cons_self
  have hplus : d ≠ 0x2B := by rintro rfl; exact absurd hd (by decide)
  have hminus : d ≠ 0x2D := by rintro rfl; exact absurd hd (by decide)
  simp only [exponentMarks, List.mem_cons, List.not_mem_nil, or_false] at hmark
  rcases hmark with rfl | rfl | rfl | rfl | rfl | rfl <;> simp [exponentMark, hplus, hminus]

theorem readExponent_ok {s rest : Text} {exponent : Option (Text × Text)}
    (h : readExponent s = .ok (exponent, rest)) :
    s = exponentText exponent ++ rest ∧
      ∀ mark ds, exponent = some (mark, ds) → mark ∈ exponentMarks ∧ Digits ds := by
  unfold readExponent at h
  split at h
  · obtain ⟨rfl, rfl⟩ := Prod.mk.inj (Except.ok.inj h)
    exact ⟨rfl, fun _ _ h => nomatch h⟩
  · rename_i mark rest' hsome
    split at h
    · rename_i hread
      obtain ⟨rfl, rfl⟩ := Prod.mk.inj (Except.ok.inj h)
      obtain ⟨rfl, hmark⟩ := exponentMark_some hsome
      obtain ⟨rfl, hds⟩ := readDigits_ok hread
      refine ⟨(List.append_assoc ..).symm, fun mark' ds' h => ?_⟩
      obtain ⟨rfl, rfl⟩ := Prod.mk.inj (Option.some.inj h)
      exact ⟨hmark, hds⟩
    · cases h

theorem exponentMark_of_closes {s : Text} (h : Closes s) : exponentMark s = none := by
  cases s with
  | nil => rfl
  | cons b s =>
      obtain ⟨-, -, he, hE⟩ := h.not_number (b := b) rfl
      have hb : ¬(b = 0x65 ∨ b = 0x45) := not_or.mpr ⟨he, hE⟩
      unfold exponentMark
      simp only
      rw [if_neg hb]

theorem readExponent_append {exponent : Option (Text × Text)} {rest : Text}
    (hds : ∀ mark ds, exponent = some (mark, ds) → mark ∈ exponentMarks ∧ Digits ds)
    (hrest : Closes rest) :
    readExponent (exponentText exponent ++ rest) = .ok (exponent, rest) := by
  rcases exponent with _ | ⟨mark, ds⟩
  · simp [exponentText, readExponent, exponentMark_of_closes hrest]
  · obtain ⟨hmark, hds⟩ := hds mark ds rfl
    have hdigits : readDigits .inExponent (ds ++ rest) = .ok (ds, rest) :=
      readDigits_append hds fun b hb => (hrest.not_number hb).1
    simp [exponentText, readExponent, exponentMark_append hmark hds, hdigits]

theorem readMagnitude_ok {negative : Bool} {s rest : Text} {l : Literal}
    (h : readMagnitude negative s = .ok (l, rest)) :
    s = l.unsigned ++ rest ∧ l.WellFormed ∧ l.negative = negative := by
  unfold readMagnitude at h
  cases hwhole : readWhole s with
  | error e => simp [hwhole, bind, Except.bind] at h
  | ok r =>
      obtain ⟨whole, s₁⟩ := r
      cases hfraction : readFraction s₁ with
      | error e => simp [hwhole, hfraction, bind, Except.bind] at h
      | ok r =>
          obtain ⟨fraction, s₂⟩ := r
          cases hexponent : readExponent s₂ with
          | error e => simp [hwhole, hfraction, hexponent, bind, Except.bind] at h
          | ok r =>
              obtain ⟨exponent, s₃⟩ := r
              simp only [hwhole, hfraction, hexponent, bind, Except.bind] at h
              obtain ⟨rfl, rfl⟩ := Prod.mk.inj (Except.ok.inj h)
              obtain ⟨rfl, hdigits, hzero⟩ := readWhole_ok hwhole
              obtain ⟨rfl, hplaces⟩ := readFraction_ok hfraction
              obtain ⟨rfl, hmark⟩ := readExponent_ok hexponent
              exact ⟨by simp [Literal.unsigned], ⟨hdigits, hzero, hplaces, hmark⟩, rfl⟩

/-- What stands after the digits before the point is no digit. -/
theorem head?_fraction_exponent {l : Literal} (hl : l.WellFormed) {rest : Text} (hrest : Closes rest) :
    (∀ b, (exponentText l.exponent ++ rest).head? = some b → Text.isDigit b = false ∧ b ≠ 0x2E) ∧
      ∀ b, (fractionText l.fraction ++ (exponentText l.exponent ++ rest)).head? = some b →
        Text.isDigit b = false := by
  have hmarks : ∀ mark ∈ exponentMarks, ∀ b, mark.head? = some b → Text.isDigit b = false ∧ b ≠ 0x2E := by
    simp only [exponentMarks, List.forall_mem_cons]
    simp
    decide
  have hexponent : ∀ b, (exponentText l.exponent ++ rest).head? = some b →
      Text.isDigit b = false ∧ b ≠ 0x2E := by
    rcases he : l.exponent with _ | ⟨mark, ds⟩
    · exact fun b hb => ⟨(hrest.not_number hb).1, (hrest.not_number hb).2.1⟩
    · intro b hb
      have hmark := (hl.exponent mark ds he).1
      refine hmarks mark hmark b ?_
      cases mark with
      | nil => exact absurd hmark (by decide)
      | cons c mark => exact hb
  refine ⟨hexponent, ?_⟩
  rcases l.fraction with _ | ds
  · exact fun b hb => (hexponent b hb).1
  · intro b hb
    obtain rfl := Option.some.inj hb
    decide

theorem readMagnitude_append {l : Literal} (hl : l.WellFormed) {rest : Text} (hrest : Closes rest) :
    readMagnitude l.negative (l.unsigned ++ rest) = .ok (l, rest) := by
  obtain ⟨hexponent, hfraction⟩ := head?_fraction_exponent hl hrest
  have h₁ := readWhole_append hl.whole hl.zero_alone hfraction
  have h₂ := readFraction_append hl.fraction (fun b hb => (hexponent b hb).1)
    (fun h => (hexponent _ h).2 rfl)
  have h₃ := readExponent_append hl.exponent hrest
  unfold readMagnitude Literal.unsigned
  simp only [List.append_assoc, h₁, h₂, h₃, bind, Except.bind]

/-! ### Strings -/

theorem escapeByte?_iff {l b : UInt8} : escapeByte? l = some b ↔ (l, b) ∈ letterEscapes := by
  constructor
  · intro h
    unfold escapeByte? at h
    split at h <;> cases h <;> simp [letterEscapes]
  · intro h
    simp only [letterEscapes, List.mem_cons, Prod.mk.injEq, List.not_mem_nil, or_false] at h
    rcases h with ⟨rfl, rfl⟩ | ⟨rfl, rfl⟩ | ⟨rfl, rfl⟩ | ⟨rfl, rfl⟩ | ⟨rfl, rfl⟩ | ⟨rfl, rfl⟩ |
      ⟨rfl, rfl⟩ | ⟨rfl, rfl⟩ <;> rfl

/-! One byte of a string at a time: outside of an escape and inside. -/

theorem readPieces_plain (acc : List Piece) (b : UInt8) (s : Text) :
    readPieces .plain acc (b :: s) =
      if b = 0x22 then .ok (acc.reverse, s) else if b = 0x5C then readPieces .escape acc s
      else if b < 0x20 then .error (.invalid b .inString) else readPieces .plain (.byte b :: acc) s :=
  rfl

theorem readPieces_escaped (acc : List Piece) (b : UInt8) (s : Text) :
    (readPieces .escape acc (b :: s) =
      if b = 0x75 then readPieces (.hex 3 0) acc s
      else (escapeByte? b).elim (.error (.invalid b .inEscape)) fun c =>
        readPieces .plain (.byte c :: acc) s) ∧
    (∀ u, readPieces (.hex 0 u) acc (b :: s) =
      (Number.hexValue? b).elim (.error (.invalid b .inHexEscape)) fun d =>
        readPieces .plain (.unit (u * 16 + d) :: acc) s) ∧
    ∀ left u, readPieces (.hex (left + 1) u) acc (b :: s) =
      (Number.hexValue? b).elim (.error (.invalid b .inHexEscape)) fun d =>
        readPieces (.hex left (u * 16 + d)) acc s := by
  refine ⟨?_, fun u => ?_, fun left u => ?_⟩
  · rw [readPieces]
    cases escapeByte? b <;> rfl
  · rw [readPieces]
    cases Number.hexValue? b <;> rfl
  · rw [readPieces]
    cases Number.hexValue? b <;> rfl

theorem elim_ok {α β : Type} {o : Option α} {e : ReadError} {f : α → Except ReadError β} {r : β}
    (h : o.elim (.error e) f = .ok r) : ∃ a, o = some a ∧ f a = .ok r := by
  cases o with
  | none => cases h
  | some a => exact ⟨a, rfl, h⟩

theorem readPieces_hex_zero {u : Nat} {acc ps : List Piece} {s rest : Text}
    (h : readPieces (.hex 0 u) acc s = .ok (ps, rest)) :
    ∃ b d t, s = b :: t ∧ Number.hexValue? b = some d ∧
      readPieces .plain (.unit (u * 16 + d) :: acc) t = .ok (ps, rest) := by
  cases s with
  | nil => cases h
  | cons b t =>
      rw [(readPieces_escaped ..).2.1] at h
      obtain ⟨d, hd, h⟩ := elim_ok h
      exact ⟨b, d, t, rfl, hd, h⟩

theorem readPieces_hex_succ {left u : Nat} {acc ps : List Piece} {s rest : Text}
    (h : readPieces (.hex (left + 1) u) acc s = .ok (ps, rest)) :
    ∃ b d t, s = b :: t ∧ Number.hexValue? b = some d ∧
      readPieces (.hex left (u * 16 + d)) acc t = .ok (ps, rest) := by
  cases s with
  | nil => cases h
  | cons b t =>
      rw [(readPieces_escaped ..).2.2] at h
      obtain ⟨d, hd, h⟩ := elim_ok h
      exact ⟨b, d, t, rfl, hd, h⟩

/-- What is read up to the closing quote is the body of a string. -/
theorem readPieces_ok {n : Nat} {s rest : Text} {acc ps : List Piece} (hn : s.length ≤ n)
    (h : readPieces .plain acc s = .ok (ps, rest)) :
    ∃ body qs, s = body ++ 0x22 :: rest ∧ IsBody body qs ∧ ps = acc.reverse ++ qs := by
  -- an escape takes several bytes, so the induction is on the length
  induction n generalizing s acc with
  | zero =>
      obtain rfl := List.length_eq_zero_iff.mp (Nat.le_zero.mp hn)
      cases h
  | succ n ih =>
      cases s with
      | nil => cases h
      | cons b s =>
          rw [List.length_cons] at hn
          rw [readPieces_plain] at h
          split at h
          · rename_i hquote
            obtain ⟨rfl, rfl⟩ := Prod.mk.inj (Except.ok.inj h)
            exact ⟨[], [], by rw [hquote, List.nil_append], .nil, (List.append_nil _).symm⟩
          rename_i hquote
          split at h
          · rename_i hescape
            subst hescape
            cases s with
            | nil => cases h
            | cons l s =>
                rw [List.length_cons] at hn
                rw [(readPieces_escaped ..).1] at h
                split at h
                · rename_i hu
                  obtain ⟨h₁, d₁, s₁, rfl, hd₁, h⟩ := readPieces_hex_succ h
                  obtain ⟨h₂, d₂, s₂, rfl, hd₂, h⟩ := readPieces_hex_succ h
                  obtain ⟨h₃, d₃, s₃, rfl, hd₃, h⟩ := readPieces_hex_succ h
                  obtain ⟨h₄, d₄, s₄, rfl, hd₄, h⟩ := readPieces_hex_zero h
                  simp only [List.length_cons] at hn
                  obtain ⟨body, qs, rfl, hbody, rfl⟩ := ih (by omega) h
                  refine ⟨_, _, ?_, .unit hd₁ hd₂ hd₃ hd₄ hbody, ?_⟩
                  · rw [hu]
                    rfl
                  · simp
                · obtain ⟨c, hc, h⟩ := elim_ok h
                  obtain ⟨body, qs, rfl, hbody, rfl⟩ := ih (by omega) h
                  exact ⟨_, _, rfl, .letter (escapeByte?_iff.mp hc) hbody, by simp⟩
          rename_i hescape
          split at h
          · cases h
          · rename_i hcontrol
            obtain ⟨body, qs, rfl, hbody, rfl⟩ := ih (by omega) h
            exact ⟨_, _, rfl, .byte (UInt8.not_lt.mp hcontrol) hquote hescape hbody, by simp⟩

theorem readPieces_append {body : Text} {qs : List Piece} (h : IsBody body qs) (acc : List Piece)
    (rest : Text) : readPieces .plain acc (body ++ 0x22 :: rest) = .ok (acc.reverse ++ qs, rest) := by
  induction h generalizing acc with
  | nil =>
      rw [List.nil_append, readPieces_plain, if_pos rfl, List.append_nil]
  | byte hlow hquote hescape _ ih =>
      rw [List.cons_append, readPieces_plain, if_neg hquote, if_neg hescape, if_neg (UInt8.not_lt.mpr hlow),
        ih]
      simp
  | letter hl _ ih =>
      rename_i l b s ps _
      have hu : l ≠ 0x75 := by
        rintro rfl
        exact absurd hl (by revert b; decide +kernel)
      rw [List.cons_append, List.cons_append, readPieces_plain, if_neg (by decide), if_pos rfl,
        (readPieces_escaped ..).1, if_neg hu, escapeByte?_iff.mpr hl, Option.elim_some, ih]
      simp
  | unit h₁ h₂ h₃ h₄ _ ih =>
      simp only [List.cons_append]
      rw [readPieces_plain, if_neg (by decide), if_pos rfl, (readPieces_escaped ..).1, if_pos rfl]
      simp only [(readPieces_escaped ..).2.1, (readPieces_escaped ..).2.2, h₁, h₂, h₃, h₄,
        Option.elim_some]
      rw [ih]
      simp

theorem readString_ok {s t rest : Text} (h : readString s = .ok (t, rest)) :
    ∃ body ps, s = body ++ 0x22 :: rest ∧ IsBody body ps ∧ t = bodyText ps := by
  unfold readString at h
  split at h
  · rename_i hread
    obtain ⟨rfl, rfl⟩ := Prod.mk.inj (Except.ok.inj h)
    obtain ⟨body, qs, rfl, hbody, rfl⟩ := readPieces_ok (Nat.le_refl _) hread
    exact ⟨body, _, rfl, hbody, rfl⟩
  · cases h

theorem readString_append {body : Text} {ps : List Piece} (h : IsBody body ps) (rest : Text) :
    readString (body ++ 0x22 :: rest) = .ok (bodyText ps, rest) := by
  unfold readString
  rw [readPieces_append h]
  rfl

end ServiceKit.Json
