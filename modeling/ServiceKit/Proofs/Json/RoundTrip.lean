import Mathlib
import ServiceKit.Cli.Run
import ServiceKit.Proofs.Json.Acceptance
import ServiceKit.Proofs.Json.Writing

/-!
A value that was parsed and is printed again can be parsed once more, and is then the same value.
Numbers are left out: what is printed for them need not be what was read.
-/

namespace ServiceKit.Json

open Number (Binary64)

/-! ### What parsing yields -/

theorem parseText_any_eq_some_iff {s : Text} {v : Json Binary64} :
    parseText .any s = some v ↔ ∃ x, read s = .ok x ∧ x ≠ .null ∧ decodeAny x = .ok v :=
  (parseText_eq_some_iff.trans decodeText_eq_ok_iff).trans (Shape.decode_eq_some_iff .any s v)

theorem canonical_rendered_ne_null {ν μ : Type} (f : ν → μ) {x : Json ν} (h : x ≠ .null) :
    (x.rendered f).canonical ≠ .null := by
  cases x with
  | null => exact absurd rfl h
  | _ => simp [rendered, canonical]

theorem decodeAny_eq {g : Literal → Binary64} {x : Json Literal} (hx : x.IsClean)
    (h : ∀ l ∈ x.numbers, floatOf l = .ok (g l)) : decodeAny x = .ok (x.rendered g).canonical := by
  rw [decodeAny, mapNumbers_ok hx h]
  rfl

/-- A value that parsing yields is the document with its numbers read and its members in order. -/
theorem exists_of_parseText {s : Text} {v : Json Binary64} (h : parseText .any s = some v) :
    ∃ (x : Json Literal) (g : Literal → Binary64), x ≠ .null ∧ x.depth ≤ maxDepth ∧
      (∀ l ∈ x.numbers, floatOf l = .ok (g l)) ∧ v = (x.rendered g).canonical := by
  obtain ⟨x, hread, hnull, hdecode⟩ := parseText_any_eq_some_iff.mp h
  obtain ⟨hx, hdepth⟩ := read_ok_iff.mp hread
  have hfloat : ∀ l ∈ x.numbers, ∃ m, floatOf l = .ok m := fun l hl =>
    (floatOf_ok_iff l).mpr ((decodeAny_ok_iff x).mp ⟨v, hdecode⟩ l hl)
  have hinhabited : Nonempty Binary64 := ⟨.zero false⟩
  choose! g hg using hfloat
  rw [decodeAny_eq hx.isClean hg] at hdecode
  exact ⟨x, g, hnull, hdepth, hg, (Except.ok.inj hdecode).symm⟩

/-- It has no stray bytes, and it is not nested too deep. -/
theorem settled_of_parseText {s : Text} {v : Json Binary64} (h : parseText .any s = some v) :
    v ≠ .null ∧ v.settled = v ∧ v.depth ≤ maxDepth := by
  obtain ⟨x, g, hnull, hdepth, -, rfl⟩ := exists_of_parseText h
  refine ⟨canonical_rendered_ne_null g hnull, settled_canonical (isClean_rendered g x), ?_⟩
  exact ((depth_canonical_le _).trans (depth_rendered g x).le).trans hdepth

theorem isFinite_of_floatOf {l : Literal} {x : Binary64} (h : floatOf l = .ok x) :
    x.isFinite = true := by
  unfold floatOf at h
  split at h
  · rename_i y hy
    cases h
    exact Binary64.isFinite_of_ofDecimal? hy
  · cases h

/-- All its numbers can be written. -/
theorem isFinite_of_parseText {s : Text} {v : Json Binary64} (h : parseText .any s = some v) :
    ∀ n ∈ v.numbers, n.isFinite = true := by
  obtain ⟨x, g, -, -, hg, rfl⟩ := exists_of_parseText h
  intro n hn
  obtain ⟨l, hl, rfl⟩ := mem_numbers_rendered (mem_numbers_of_canonical hn)
  exact isFinite_of_floatOf (hg l hl)

/-! ### What is parsed again -/

/-- What is printed for a value without numbers is a document that denotes it, with U+FFFD for stray
bytes. -/
theorem isDocument_writeLine {v : Json Binary64} (hfree : v.numbers = []) (lit : Binary64 → Literal) :
    IsDocument (Shape.writeLine .any v) (v.rendered lit) := by
  have hbreak : Blanks [0x0A] := List.forall_mem_singleton.mpr (.inr (.inr (.inl rfl)))
  refine .mk blanks_nil (isValue_write fun n hn => ?_) hbreak
  rw [hfree] at hn
  cases hn

/-- It is parsed as the value with its members in order. -/
theorem parseText_writeLine {v : Json Binary64} (hfree : v.numbers = []) (hnull : v ≠ .null)
    (hdepth : v.depth ≤ maxDepth) : parseText .any (Shape.writeLine .any v) = some v.settled := by
  have lit : Binary64 → Literal := fun _ => ⟨false, [], none, none⟩
  have hread : read (Shape.writeLine .any v) = .ok (v.rendered lit) :=
    read_ok_iff.mpr ⟨isDocument_writeLine hfree lit, (depth_rendered lit v).le.trans hdepth⟩
  have hfloat : ∀ l ∈ (v.rendered lit).numbers, floatOf l = .ok (.zero false) := by
    intro l hl
    obtain ⟨n, hn, -⟩ := mem_numbers_rendered hl
    rw [hfree] at hn
    cases hn
  refine parseText_any_eq_some_iff.mpr ⟨_, hread, ?_, ?_⟩
  · cases v with
    | null => exact absurd rfl hnull
    | _ => simp [rendered]
  · rw [decodeAny_eq (isClean_rendered lit v) hfloat, rendered_rendered, settled_eq,
      rendered_congr (f := _ ∘ lit)]
    intro n hn
    rw [hfree] at hn
    cases hn

/-! ### What is printed -/

theorem isLine_of_free {v : Json Binary64} (hfree : v.numbers = []) :
    IsLine (v.write .plain Number.Layout.json.write) := by
  refine isLine_write fun n hn => ?_
  rw [hfree] at hn
  cases hn

theorem encodeLine_ok {v : Json Binary64} (h : ∀ n ∈ v.numbers, n.isFinite = true) :
    encodeLine v = .ok (Shape.writeLine .any v) := by
  obtain ⟨w, hw⟩ := (mapNumbers_ok_iff (f := finiteOf) v).mpr fun n hn => ⟨n, if_pos (h n hn)⟩
  rw [encodeLine, hw]
  rfl

theorem printValue_of_finite (c : Cli.Context) (s : Text) {v : Json Binary64}
    (h : ∀ n ∈ v.numbers, n.isFinite = true) :
    c.printValue s (some v) = c.print (Shape.writeLine .any v) := by
  rw [Cli.Context.printValue, encodeLine_ok h]

theorem printValue_last {s : Text} {v? : Option (Json Binary64)} {c : Cli.Context}
    (h : c.setup.outputError = none) (hfinite : ∀ n ∈ (v?.getD .null).numbers, n.isFinite = true) :
    (c.printValue s v?).stop = none ∧
      (c.printValue s v?).writes.getLast? = some ⟨.stdout, Shape.writeLine .any (v?.getD .null)⟩ := by
  cases v? with
  | none =>
      have hnull : utf8 "null\n" = Shape.writeLine .any .null := by decide
      simp [Cli.Context.printValue, Cli.Context.print, Cli.Ran.after, h, hnull]
  | some v =>
      rw [printValue_of_finite c s (v := v) hfinite]
      simp [Cli.Context.print, h]

/-- A value without numbers that was parsed is printed on one line of UTF-8; the line is parsed as the
same value, and what is printed then is the same line. -/
theorem parseText_any_roundTrip {s : Text} {v : Json Binary64}
    (hv : (parseText .any s).getD .null = v) (hfree : v.numbers = []) :
    (∃ body, Shape.writeLine .any v = body ++ [0x0A] ∧ 0x0A ∉ body) ∧
      Text.isUtf8 (Shape.writeLine .any v) = true ∧
      (v ≠ .null → parseText .any (Shape.writeLine .any v) = some v) ∧
      Shape.writeLine .any ((parseText .any (Shape.writeLine .any v)).getD .null) =
        Shape.writeLine .any v ∧
      ∀ c : Cli.Context, c.setup.outputError = none →
        (c.printValue s (parseText .any s)).stop = none ∧
          (c.printValue s (parseText .any s)).writes.getLast? =
            some ⟨.stdout, Shape.writeLine .any v⟩ := by
  have hline := isLine_of_free hfree
  have hagain : v ≠ .null → parseText .any (Shape.writeLine .any v) = some v := by
    intro hnull
    cases hparse : parseText .any s with
    | none =>
        rw [hparse] at hv
        exact absurd hv.symm hnull
    | some w =>
        rw [hparse] at hv
        obtain rfl : w = v := hv
        obtain ⟨-, hsettled, hdepth⟩ := settled_of_parseText hparse
        rw [parseText_writeLine hfree hnull hdepth, hsettled]
  have hfinite : ∀ n ∈ v.numbers, n.isFinite = true := by
    rw [hfree]
    exact fun n hn => nomatch hn
  refine ⟨⟨_, rfl, hline.not_mem⟩, hline.isUtf8, hagain, ?_, fun c hc => ?_⟩
  · by_cases hnull : v = .null
    · subst hnull
      decide +kernel
    · rw [hagain hnull, Option.getD_some]
  · subst hv
    exact printValue_last hc hfinite

/-- Escapes of every kind, a pair and half a pair of units, a stray byte, and a key that comes twice. -/
def knottedText : Text :=
  utf8 " \x7b\"c\": 1, \"b\": [\"\\ud83d\\ude00\\ud800\\/\\t\\u0001\", true, null],\n" ++
    utf8 " \"\\u00e9\": \"" ++ 0xFF ::
    utf8 "\\\"\\\\\", \"a\": \x7b\x7d, \"c\": [\"\\u2028\\u007f<\", false, []]\x7d "

theorem parseText_any_roundTrip_knotted :
    ∃ v, parseText .any knottedText = some v ∧ v.numbers = [] ∧
      Shape.writeLine .any v =
        utf8 "\x7b\"a\":\x7b\x7d,\"b\":[\"😀\uFFFD/\\t\\u0001\",true,null]," ++
          utf8 "\"c\":[\"\\u2028\x7f<\",false,[]],\"é\":\"\uFFFD\\\"\\\\\"\x7d\n" ∧
      parseText .any (Shape.writeLine .any v) = some v := by
  have hsome : (parseText .any knottedText).isSome = true := by decide +kernel
  obtain ⟨v, hv⟩ := Option.isSome_iff_exists.mp hsome
  have hget : (parseText .any knottedText).getD .null = v := by rw [hv]; rfl
  have hfree : v.numbers = [] := by
    rw [← hget]
    exact List.isEmpty_iff.mp (by decide +kernel)
  obtain ⟨-, -, hagain, -⟩ := parseText_any_roundTrip hget hfree
  refine ⟨v, hv, hfree, ?_, hagain (settled_of_parseText hv).1⟩
  rw [← hget]
  decide +kernel

end ServiceKit.Json
