import Mathlib
import ServiceKit.Proofs.Text.Case
import ServiceKit.Text.Format

/-!
Formats that are applied one after the other. Trimming a text again changes nothing, white space is what
it was after letters are put into lower case, and so two formats act as one that does what either does.
-/

namespace ServiceKit

namespace Text

/-! ### The ends of a list -/

section Ends

variable {α β : Type}

/-- A list without those elements at its two ends that satisfy a test. -/
def dropEnds (p : α → Bool) (l : List α) : List α := dropEndWhile p (l.dropWhile p)

theorem exists_dropEnds (p : α → Bool) (l : List α) :
    ∃ before after, l = before ++ dropEnds p l ++ after ∧ (∀ x ∈ before, p x = true) ∧
      ∀ x ∈ after, p x = true := by
  refine ⟨l.takeWhile p, (l.dropWhile p).rtakeWhile p, ?_, ?_, ?_⟩
  · change l = l.takeWhile p ++ (l.dropWhile p).rdropWhile p ++ (l.dropWhile p).rtakeWhile p
    rw [List.append_assoc, List.rdropWhile_append_rtakeWhile, List.takeWhile_append_dropWhile]
  · intro x hx
    exact List.mem_takeWhile_imp hx
  · intro x hx
    exact List.mem_rtakeWhile_imp hx

theorem dropEndWhile_append {p : α → Bool} {after : List α} (h : ∀ x ∈ after, p x = true) (l : List α) :
    dropEndWhile p (l ++ after) = dropEndWhile p l := by
  rw [dropEndWhile, List.reverse_append, List.dropWhile_append_of_pos]
  · rfl
  · intro x hx
    exact h x (List.mem_reverse.mp hx)

/-- It does not matter how many such elements stand around the others. -/
theorem dropEnds_append {p : α → Bool} {before after : List α} (hbefore : ∀ x ∈ before, p x = true)
    (hafter : ∀ x ∈ after, p x = true) (l : List α) :
    dropEnds p (before ++ l ++ after) = dropEnds p l := by
  rw [dropEnds, List.append_assoc, List.dropWhile_append_of_pos hbefore, List.dropWhile_append]
  split
  · rename_i hl
    rw [List.isEmpty_iff] at hl
    rw [List.dropWhile_eq_nil_iff.mpr hafter, dropEnds, hl]
  · exact dropEndWhile_append hafter _

theorem dropEnds_map {p : α → Bool} {q : β → Bool} {f : α → β} (h : ∀ x, q (f x) = p x)
    (l : List α) : dropEnds q (l.map f) = (dropEnds p l).map f := by
  have hcomp : q ∘ f = p := by
    funext x
    exact h x
  simp only [dropEnds, dropEndWhile, List.dropWhile_map, ← List.map_reverse, hcomp]

theorem dropWhile_dropEnds (p : α → Bool) (l : List α) : (dropEnds p l).dropWhile p = dropEnds p l := by
  obtain ⟨after, hafter⟩ := List.rdropWhile_prefix p (l := l.dropWhile p)
  change dropEnds p l ++ after = l.dropWhile p at hafter
  cases hl : dropEnds p l with
  | nil => rfl
  | cons x xs =>
      rw [hl] at hafter
      have hne : l.dropWhile p ≠ [] := by
        rw [← hafter]
        exact List.cons_ne_nil x _
      have hx := List.head_dropWhile_not p hne
      simp only [← hafter, List.cons_append, List.head_cons] at hx
      rw [List.dropWhile_cons, hx]
      rfl

theorem dropEnds_dropEnds (p : α → Bool) (l : List α) : dropEnds p (dropEnds p l) = dropEnds p l := by
  change ((dropEnds p l).dropWhile p).rdropWhile p = _
  rw [dropWhile_dropEnds]
  exact List.rdropWhile_idempotent p _

end Ends

/-! ### Trimming -/

theorem trim_eq (s : Text) : s.trim = ofGlyphs (dropEnds isSpaceGlyph s.glyphs) := rfl

theorem glyphs_trim (s : Text) : s.trim.glyphs = dropEnds isSpaceGlyph s.glyphs := by
  obtain ⟨before, after, h, -, -⟩ := exists_dropEnds isSpaceGlyph s.glyphs
  exact glyphs_ofGlyphs h

@[simp] theorem trim_trim (s : Text) : s.trim.trim = s.trim := by
  rw [trim_eq s.trim, glyphs_trim, dropEnds_dropEnds, ← trim_eq]

/-! ### White space and case -/

/-- The code points of white space. -/
def spacePoints : List Nat :=
  [0x09, 0x0A, 0x0B, 0x0C, 0x0D, 0x20, 0x85, 0xA0, 0x1680, 0x2000, 0x2001, 0x2002, 0x2003, 0x2004,
    0x2005, 0x2006, 0x2007, 0x2008, 0x2009, 0x200A, 0x2028, 0x2029, 0x202F, 0x205F, 0x3000]

theorem isSpacePoint_iff (n : Nat) : isSpacePoint n = true ↔ n ∈ spacePoints := by
  simp only [isSpacePoint, spacePoints, Bool.or_eq_true, Bool.and_eq_true, decide_eq_true_eq, beq_iff_eq,
    List.mem_cons, List.not_mem_nil, or_false]
  omega

theorem isValidChar_of_mem_spacePoints : ∀ n ∈ spacePoints, n.isValidChar := by decide

/-- Neither a letter that has a lower-case form nor the form itself is white space. -/
theorem lowerTable_spacePoints : CaseRun.lowerTable.all (fun r => spacePoints.all fun n =>
    (n < r.first || r.last < n) && r.avoids n) = true := by
  decide +kernel

theorem isSpacePoint_lowerPoint (n : Nat) : isSpacePoint (lowerPoint n) = isSpacePoint n := by
  rw [Bool.eq_iff_iff, isSpacePoint_iff, isSpacePoint_iff]
  by_cases h : n < 0x80
  · rw [lowerPoint_of_lt h]
    split
    · simp only [spacePoints, List.mem_cons, List.not_mem_nil, or_false]
      omega
    · rfl
  · rw [lowerPoint, if_neg h]
    rcases CaseRun.apply_eq CaseRun.lowerTable n with hn | ⟨r, hr, hold, hn⟩
    · rw [hn]
    · have hspaces := List.all_eq_true.mp (List.all_eq_true.mp lowerTable_spacePoints r hr)
      simp only [CaseRun.holds, CaseRun.avoids, Bool.or_eq_true, Bool.and_eq_true, decide_eq_true_eq,
        beq_iff_eq] at hold hspaces
      rw [hn, CaseRun.map]
      constructor
      · intro hmem
        have hrun := hspaces _ hmem
        omega
      · intro hmem
        have hrun := hspaces _ hmem
        omega

theorem isSpaceGlyph_lowerChar (g : Glyph) :
    isSpaceGlyph (.char (lowerChar g.shown)) = isSpaceGlyph g := by
  cases g with
  | stray b =>
      change isSpacePoint (lowerChar Glyph.replacement).toNat = false
      decide +kernel
  | char c =>
      change isSpacePoint (lowerChar c).toNat = isSpacePoint c.toNat
      rw [lowerChar, Char.toNat_ofNat]
      split
      · exact isSpacePoint_lowerPoint c.toNat
      · rename_i hvalid
        have hother : isSpacePoint (lowerPoint c.toNat) = false := by
          rw [Bool.eq_false_iff, ne_eq, isSpacePoint_iff]
          intro hmem
          exact hvalid (isValidChar_of_mem_spacePoints _ hmem)
        rw [← isSpacePoint_lowerPoint c.toNat, hother]
        rfl

theorem glyphs_lower (s : Text) : s.lower.glyphs = s.glyphs.map fun g => .char (lowerChar g.shown) := by
  rw [lower, glyphs_ofChars, chars, List.map_map, List.map_map]
  rfl

/-- Trimming may come first or last. -/
theorem trim_lower (s : Text) : s.lower.trim = s.trim.lower := by
  calc s.lower.trim
      = ofGlyphs (dropEnds isSpaceGlyph (s.glyphs.map fun g => .char (lowerChar g.shown))) := by
        rw [trim_eq, glyphs_lower]
    _ = ofGlyphs (s.trim.glyphs.map fun g => .char (lowerChar g.shown)) := by
        rw [dropEnds_map isSpaceGlyph_lowerChar, glyphs_trim]
    _ = s.trim.lower := by
        rw [← glyphs_lower, ofGlyphs_glyphs]

end Text

/-- All that one of two formats does. -/
def FormatOptions.join (o p : FormatOptions) : FormatOptions :=
  ⟨o.trim || p.trim, o.lowercase || p.lowercase⟩

/-- Formats act on texts, whatever bytes these have: one that does nothing leaves a text as it is, and two
that are applied one after the other are their join. So a format that is applied twice does no more
than once, and trimming and lower case may change places. -/
theorem Text.format_format (s : Text) :
    s.format {} = s ∧
      (∀ o p : FormatOptions, (s.format o).format p = s.format (o.join p)) ∧
      (∀ o : FormatOptions, (s.format o).format o = s.format o) ∧
      (s.format { trim := true }).format { lowercase := true } =
        (s.format { lowercase := true }).format { trim := true } := by
  have hjoin (o p : FormatOptions) : (s.format o).format p = s.format (o.join p) := by
    obtain ⟨trim, lowercase⟩ := o
    obtain ⟨trim', lowercase'⟩ := p
    cases trim <;> cases lowercase <;> cases trim' <;> cases lowercase' <;>
      simp [format, FormatOptions.join, trim_lower]
  refine ⟨rfl, hjoin, ?_, ?_⟩
  · intro o
    rw [hjoin, FormatOptions.join, Bool.or_self, Bool.or_self]
  · rw [hjoin, hjoin]
    rfl

end ServiceKit
