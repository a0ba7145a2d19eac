import Mathlib
import ServiceKit.Proofs.Json.Acceptance
import ServiceKit.Proofs.Text.Formatting

/-!
What decoding a text can come to: nothing for a null, a value for a document of the wanted shape, and an
error for every other text.
-/

namespace ServiceKit

namespace Json

open Number (fitsInt64)

/-! ### Documents of a shape -/

/-- Inside a document a null leaves the value that is there already. -/
def FitsString : Json Literal → Prop
  | .null => True
  | .string _ => True
  | _ => False

def FitsInt : Json Literal → Prop
  | .null => True
  | .number l => ∃ i, l.toInt? = some i ∧ fitsInt64 i = true
  | _ => False

/-- A member of a point; one that the point does not have may be anything. -/
def FitsPoint (key : Text) (x : Json Literal) : Prop :=
  if Text.sameLetters key (utf8 "x") ∨ Text.sameLetters key (utf8 "y") then FitsInt x
  else if Text.sameLetters key (utf8 "label") then FitsString x
  else True

/-- Does a document have a shape? -/
def Shape.Fits : Shape → Json Literal → Prop
  | any, x => ∀ l ∈ x.numbers, l.cut.magnitude < Number.Binary64.bound
  | string, x => FitsString x
  | int, x => FitsInt x
  | byte, .number l => l.negative = false ∧ ∃ n : Nat, l.toInt? = some (n : Int) ∧ n < 256
  | float, .number l => l.cut.magnitude < Number.Binary64.bound
  | bool, .bool _ => True
  | intMap, .object ms => ∀ m ∈ ms, FitsInt m.2
  | strings, .array xs => ∀ x ∈ xs, FitsString x
  | ints, .array xs => ∀ x ∈ xs, FitsInt x
  | point, .object ms => ∀ m ∈ ms, FitsPoint m.1 m.2
  | _, _ => False

section Lists

variable {α β ε σ : Type}

theorem mapM_ok_iff {f : α → Except ε β} (xs : List α) :
    (∃ ys, xs.mapM f = .ok ys) ↔ ∀ x ∈ xs, ∃ y, f x = .ok y := by
  induction xs with
  | nil => simp [pure, Except.pure]
  | cons x xs ih =>
      rw [List.mapM_cons, exists_bind_ok_iff, List.forall_mem_cons, ← ih]
      simp [exists_bind_ok_iff, pure, Except.pure]

theorem foldlM_ok_iff {f : σ → α → Except ε σ} {P : α → Prop} (h : ∀ p x, (∃ q, f p x = .ok q) ↔ P x)
    (xs : List α) (p : σ) : (∃ q, xs.foldlM f p = .ok q) ↔ ∀ x ∈ xs, P x := by
  induction xs generalizing p with
  | nil => simp [pure, Except.pure]
  | cons x xs ih =>
      rw [List.foldlM_cons, exists_bind_ok_iff, List.forall_mem_cons, ← h p]
      simp only [ih]
      simp

end Lists

theorem not_wrongKind_ok {α : Type} (wanted : String) (x : Json Literal) :
    ¬∃ y : α, wrongKind wanted x = .ok y := by
  rintro ⟨y, hy⟩
  cases hy

theorem intOf_eq_ok_iff {l : Literal} {i : Int} :
    intOf l = .ok i ↔ l.toInt? = some i ∧ fitsInt64 i = true := by
  unfold intOf
  cases l.toInt? with
  | none => simp
  | some j =>
      cases hj : fitsInt64 j with
      | true => grind
      | false => grind

theorem intOf_ok_iff (l : Literal) :
    (∃ i, intOf l = .ok i) ↔ ∃ i, l.toInt? = some i ∧ fitsInt64 i = true :=
  exists_congr fun _ => intOf_eq_ok_iff

theorem byteOf_eq_ok_iff {l : Literal} {n : Nat} :
    byteOf l = .ok n ↔ l.negative = false ∧ l.toInt? = some (n : Int) ∧ n < 256 := by
  unfold byteOf
  cases l.negative with
  | true => simp
  | false =>
      rcases l.toInt? with _ | m | m
      · simp
      · by_cases hm : m < 256 <;> grind
      · simp

theorem byteOf_ok_iff (l : Literal) :
    (∃ n, byteOf l = .ok n) ↔ l.negative = false ∧ ∃ n : Nat, l.toInt? = some (n : Int) ∧ n < 256 := by
  simp only [byteOf_eq_ok_iff, exists_and_left]

theorem decodeInt_ok_iff (old : Int) (x : Json Literal) :
    (∃ i, decodeInt old x = .ok i) ↔ FitsInt x := by
  cases x with
  | null => exact iff_of_true ⟨old, rfl⟩ trivial
  | number l => exact intOf_ok_iff l
  | bool b => exact iff_of_false (not_wrongKind_ok _ _) id
  | string s => exact iff_of_false (not_wrongKind_ok _ _) id
  | array xs => exact iff_of_false (not_wrongKind_ok _ _) id
  | object ms => exact iff_of_false (not_wrongKind_ok _ _) id

theorem decodeString_ok_iff (old : Text) (x : Json Literal) :
    (∃ s, decodeString old x = .ok s) ↔ FitsString x := by
  cases x with
  | null => exact iff_of_true ⟨old, rfl⟩ trivial
  | string s => exact iff_of_true ⟨s, rfl⟩ trivial
  | bool b => exact iff_of_false (not_wrongKind_ok _ _) id
  | number l => exact iff_of_false (not_wrongKind_ok _ _) id
  | array xs => exact iff_of_false (not_wrongKind_ok _ _) id
  | object ms => exact iff_of_false (not_wrongKind_ok _ _) id

theorem atField_ok_iff {α : Type} (field : String) (r : Except Mismatch α) :
    (∃ y, atField field r = .ok y) ↔ ∃ y, r = .ok y := by
  cases r <;> simp [atField, Except.mapError]

theorem decodePointMember_ok_iff (p : Point) (key : Text) (x : Json Literal) :
    (∃ q, decodePointMember p key x = .ok q) ↔ FitsPoint key x := by
  unfold decodePointMember FitsPoint
  by_cases hx : Text.sameLetters key (utf8 "x") = true
  · simp [hx, exists_bind_ok_iff, atField_ok_iff, decodeInt_ok_iff]
  by_cases hy : Text.sameLetters key (utf8 "y") = true
  · simp [hx, hy, exists_bind_ok_iff, atField_ok_iff, decodeInt_ok_iff]
  by_cases hlabel : Text.sameLetters key (utf8 "label") = true
  · simp [hx, hy, hlabel, exists_bind_ok_iff, atField_ok_iff, decodeString_ok_iff]
  · simp [hx, hy, hlabel]

/-- A document is decoded exactly if it has the wanted shape. -/
theorem Shape.decodeValue_ok_iff (shape : Shape) (x : Json Literal) :
    (∃ v, shape.decodeValue x = .ok v) ↔ shape.Fits x := by
  cases shape with
  | any => exact decodeAny_ok_iff x
  | string => exact decodeString_ok_iff [] x
  | int => exact decodeInt_ok_iff 0 x
  | byte =>
      cases x with
      | number l => exact byteOf_ok_iff l
      | _ => exact iff_of_false (not_wrongKind_ok _ _) id
  | float =>
      cases x with
      | number l => exact floatOf_ok_iff l
      | _ => exact iff_of_false (not_wrongKind_ok _ _) id
  | bool =>
      cases x with
      | bool b => exact iff_of_true ⟨b, rfl⟩ trivial
      | _ => exact iff_of_false (not_wrongKind_ok _ _) id
  | intMap =>
      cases x with
      | object ms =>
          have hentry (m : Text × Json Literal) :
              (∃ e, (do .ok (m.1, ← decodeInt 0 m.2) : Except Mismatch (Text × Int)) = .ok e) ↔
                FitsInt m.2 := by
            rw [exists_bind_ok_iff, ← decodeInt_ok_iff 0]
            simp
          have hentries := mapM_ok_iff
            (f := fun m : Text × Json Literal => do .ok (m.1, ← decodeInt 0 m.2)) ms
          simp only [hentry] at hentries
          refine Iff.trans (exists_bind_ok_iff.trans ?_) hentries
          simp
      | _ => exact iff_of_false (not_wrongKind_ok _ _) id
  | strings =>
      cases x with
      | array xs => simp only [decodeValue, mapM_ok_iff, decodeString_ok_iff, Fits]
      | _ => exact iff_of_false (not_wrongKind_ok _ _) id
  | ints =>
      cases x with
      | array xs => simp only [decodeValue, mapM_ok_iff, decodeInt_ok_iff, Fits]
      | _ => exact iff_of_false (not_wrongKind_ok _ _) id
  | point =>
      cases x with
      | object ms => exact foldlM_ok_iff (fun p m => decodePointMember_ok_iff p m.1 m.2) ms {}
      | _ => exact iff_of_false (not_wrongKind_ok _ _) id

/-! ### Null -/

theorem isDocument_null_iff (s : Text) :
    IsDocument s .null ↔ Text.dropEnds isBlank s = utf8 "null" := by
  constructor
  · intro h
    cases h with
    | mk hv hs hw =>
        cases hs with
        | nullWord =>
            rw [← List.append_assoc, Text.dropEnds_append]
            · decide
            · intro b hb
              exact isBlank_iff.mpr (hv b hb)
            · intro b hb
              exact isBlank_iff.mpr (hw b hb)
  · intro h
    obtain ⟨before, after, hs, hbefore, hafter⟩ := Text.exists_dropEnds isBlank s
    rw [h, List.append_assoc] at hs
    rw [hs]
    apply IsDocument.mk _ .nullWord
    · intro b hb
      exact isBlank_iff.mp (hafter b hb)
    · intro b hb
      exact isBlank_iff.mp (hbefore b hb)

theorem read_eq_null_iff (s : Text) : read s = .ok .null ↔ Text.dropEnds isBlank s = utf8 "null" := by
  rw [read_ok_iff, isDocument_null_iff]
  exact and_iff_left (Nat.zero_le _)

/-! ### Outcomes -/

theorem decodeText_ok_some_iff (shape : Shape) (s : Text) :
    (∃ v, decodeText shape s = .ok (some v)) ↔
      ∃ x, IsDocument s x ∧ x.depth ≤ maxDepth ∧ x ≠ .null ∧ shape.Fits x := by
  simp only [decodeText_eq_ok_iff, shape.decode_eq_some_iff, read_ok_iff, ← shape.decodeValue_ok_iff]
  constructor
  · rintro ⟨v, x, ⟨hx, hdepth⟩, hnull, hv⟩
    exact ⟨x, hx, hdepth, hnull, v, hv⟩
  · rintro ⟨x, hx, hdepth, hnull, v, hv⟩
    exact ⟨v, x, ⟨hx, hdepth⟩, hnull, hv⟩

/-- Nothing, a value and an error are kept apart, whatever is wanted. There is nothing and no error
exactly for a null with blanks around it, and a value exactly for a document of the wanted shape that is
not nested too deep; for every other text there is an error about its format. Those who want no error
get the value, if there is one. -/
theorem decodeText_outcomes (shape : Shape) (s : Text) :
    (decodeText shape s = .ok none ↔ Text.dropEnds isBlank s = utf8 "null") ∧
      ((∃ v, decodeText shape s = .ok (some v)) ↔
        ∃ x, IsDocument s x ∧ x.depth ≤ maxDepth ∧ x ≠ .null ∧ shape.Fits x) ∧
      (decodeText shape s = .ok none ∨ (∃ v, decodeText shape s = .ok (some v)) ∨
        ∃ f, decodeText shape s = .error f ∧ f.code = Fault.invalidFormatCode) ∧
      parseText shape s = (decodeText shape s).toOption.join := by
  refine ⟨?_, decodeText_ok_some_iff shape s, ?_, parseText_eq shape s⟩
  · rw [decodeText_eq_ok_iff, shape.decode_eq_none_iff, read_eq_null_iff]
  · cases hdecode : decodeText shape s with
    | error f => exact .inr (.inr ⟨f, rfl, (decodeText_error hdecode).1⟩)
    | ok v =>
        cases v with
        | none => exact .inl rfl
        | some v => exact .inr (.inl ⟨v, rfl⟩)

end Json

end ServiceKit
