import Mathlib
import ServiceKit.Check.Collector
import ServiceKit.Text.Format

/-!
Failures that are collected. After every run of calls the collector has one entry for each check that
failed, in the order of the calls. The errors that it hands out on the way list what it had at that time:
they share its storage, but the collector writes only behind all lists that it has ever handed out.
-/

namespace ServiceKit

namespace Storage

variable {α : Type} {s : Storage α} {x y : Span}

theorem length_read (h : s.Holds x) : (s.read x).length = x.length := by
  rw [read, List.length_take, Nat.min_eq_left h.2]

/-- The span lies in another block, or ends no later. -/
structure Spares (s : Storage α) (x y : Span) : Prop where
  block_lt : y.block < s.blocks.length
  length_le : y.block = x.block → y.length ≤ x.length

theorem Holds.spares (h : s.Holds x) : s.Spares x x := ⟨h.1, fun _ => Nat.le_refl _⟩

variable [Inhabited α]

theorem read_push (h : s.Holds x) (a : α) :
    (s.push x a).1.read (s.push x a).2 = s.read x ++ [a] := by
  rcases Nat.lt_or_ge x.length (s.cells x.block).length with hroom | hfull
  · rw [push_of_lt hroom, read, cells_set h.1]
    change ((s.cells x.block).set x.length a).take (x.length + 1) = _
    rw [List.take_succ_eq_append_getElem (by simpa using hroom), List.take_set_of_le (Nat.le_refl _),
      List.getElem_set_self, read]
  · have hlength := length_read h
    rw [push_of_le hfull, read, cells_append]
    change (s.read x ++ a :: List.replicate _ default).take (x.length + 1) = _
    rw [List.take_append, List.take_of_length_le (by omega), hlength, Nat.add_sub_cancel_left,
      List.take_succ_cons, List.take_zero]

/-- What is put behind a span is not seen in the spans that end no later. -/
theorem Spares.read_push (h : s.Spares x y) (a : α) : (s.push x a).1.read y = s.read y := by
  rcases Nat.lt_or_ge x.length (s.cells x.block).length with hroom | hfull
  · rw [push_of_lt hroom]
    by_cases hblock : y.block = x.block
    · rw [read, read, hblock, cells_set (hblock ▸ h.block_lt), List.take_set_of_le (h.length_le hblock)]
    · rw [read, cells, List.getElem?_set_ne (Ne.symm hblock)]
      rfl
  · rw [push_of_le hfull, read, cells, List.getElem?_append_left h.block_lt]
    rfl

theorem Spares.push (h : s.Spares x y) (a : α) : (s.push x a).1.Spares (s.push x a).2 y := by
  rcases Nat.lt_or_ge x.length (s.cells x.block).length with hroom | hfull
  · rw [push_of_lt hroom]
    refine ⟨by simpa using h.block_lt, ?_⟩
    intro hblock
    exact Nat.le_succ_of_le (h.length_le hblock)
  · rw [push_of_le hfull]
    refine ⟨?_, ?_⟩
    · rw [List.length_append]
      exact Nat.lt_succ_of_lt h.block_lt
    · -- a new block is none of those that were there
      intro hblock
      exact absurd hblock (Nat.ne_of_lt h.block_lt)

end Storage

namespace Check

/-! ### Checks that fail -/

namespace Probe

def Fails : Probe → Prop
  | required _ value => value.format { trim := true } = []
  | maxCount _ values max => max < values.length
  | oneOf _ value allowed => value ≠ [] ∧ value ∉ allowed
  | custom condition _ _ => condition = false
  | addError _ _ => True

/-- What is reported of a check that fails. -/
def entry : Probe → FieldError
  | required field _ => ⟨field, utf8 "is required"⟩
  | maxCount field values max =>
      ⟨field, utf8 "accepts at most " ++ Number.integer max ++ utf8 " value(s), got "
        ++ Number.decimal values.length⟩
  | oneOf field _ allowed => ⟨field, utf8 "must be one of: " ++ Text.join (utf8 ", ") allowed⟩
  | custom _ field message => ⟨field, message⟩
  | addError field message => ⟨field, message⟩

instance (p : Probe) : Decidable p.Fails :=
  match p with
  | required _ value => inferInstanceAs (Decidable (value.format { trim := true } = []))
  | maxCount _ values max => inferInstanceAs (Decidable (max < values.length))
  | oneOf _ value allowed => inferInstanceAs (Decidable (value ≠ [] ∧ value ∉ allowed))
  | custom condition _ _ => inferInstanceAs (Decidable (condition = false))
  | addError _ _ => inferInstanceAs (Decidable True)

theorem failure?_of_fails {p : Probe} (h : p.Fails) : p.failure? = some p.entry := by
  cases p with
  | required field value => exact if_pos (List.isEmpty_iff.mpr h)
  | maxCount field values max => exact if_pos h
  | oneOf field value allowed =>
      apply if_neg
      rw [Bool.or_eq_true, List.isEmpty_iff, List.contains_iff_mem, not_or]
      exact h
  | custom condition field message => exact if_neg (Bool.not_eq_true _ ▸ h)
  | addError field message => rfl

theorem failure?_of_not_fails {p : Probe} (h : ¬p.Fails) : p.failure? = none := by
  cases p with
  | required field value => exact if_neg fun hempty => h (List.isEmpty_iff.mp hempty)
  | maxCount field values max => exact if_neg h
  | oneOf field value allowed =>
      apply if_pos
      rw [Bool.or_eq_true, List.isEmpty_iff, List.contains_iff_mem]
      exact or_iff_not_and_not.mpr h
  | custom condition field message => exact if_pos (Bool.eq_true_of_not_eq_false h)
  | addError field message => exact absurd trivial h

end Probe

def Call.probe? : Call → Option Probe
  | .probe p => some p
  | .validate => none

/-- One entry for each check that fails, in the order of the calls. -/
def logOf (calls : List Call) : List FieldError :=
  ((calls.filterMap Call.probe?).filter (·.Fails)).map Probe.entry

theorem logOf_append (before after : List Call) :
    logOf (before ++ after) = logOf before ++ logOf after := by
  rw [logOf, List.filterMap_append, List.filter_append, List.map_append]
  rfl

namespace Collector

/-! ### One call -/

theorem errors_add (c : Collector) (e : FieldError) : (c.add e).errors = c.errors ++ [e] :=
  Storage.read_push c.holds e

theorem errors_step (c : Collector) (call : Call) :
    (c.step call).1.errors = c.errors ++ logOf [call] := by
  cases call with
  | validate => exact (List.append_nil _).symm
  | probe p =>
      change (c.probe p).errors = _
      by_cases h : p.Fails
      · have hlog : logOf [.probe p] = [p.entry] := by simp [logOf, Call.probe?, h]
        rw [probe, Probe.failure?_of_fails h, hlog]
        exact errors_add c p.entry
      · have hlog : logOf [.probe p] = [] := by simp [logOf, Call.probe?, h]
        rw [probe, Probe.failure?_of_not_fails h, hlog, List.append_nil]

/-- A call leaves alone what ends no later than the collector's own list, and goes on to do so. -/
theorem spares_step {c : Collector} {y : Span} (h : c.storage.Spares c.held y) (call : Call) :
    (c.step call).1.storage.Spares (c.step call).1.held y ∧
      (c.step call).1.storage.read y = c.storage.read y := by
  cases call with
  | validate => exact ⟨h, rfl⟩
  | probe p =>
      change (c.probe p).storage.Spares (c.probe p).held y ∧ (c.probe p).storage.read y = _
      rw [probe]
      cases p.failure? with
      | none => exact ⟨h, rfl⟩
      | some e => exact ⟨h.push e, h.read_push e⟩

/-! ### Runs -/

theorem run_cons (c : Collector) (call : Call) (calls : List Call) :
    c.run (call :: calls) = (c.step call).1.run calls := rfl

theorem run_append (c : Collector) (before after : List Call) :
    c.run (before ++ after) = (c.run before).run after := List.foldl_append

theorem errors_run (c : Collector) (calls : List Call) :
    (c.run calls).errors = c.errors ++ logOf calls := by
  induction calls generalizing c with
  | nil => exact (List.append_nil _).symm
  | cons call calls ih =>
      rw [run_cons, ih, errors_step, List.append_assoc, ← logOf_append]
      rfl

theorem read_run {c : Collector} {y : Span} (h : c.storage.Spares c.held y) (calls : List Call) :
    (c.run calls).storage.read y = c.storage.read y := by
  induction calls generalizing c with
  | nil => rfl
  | cons call calls ih =>
      obtain ⟨hspares, hread⟩ := spares_step h call
      rw [run_cons, ih hspares, hread]

/-! ### Errors that are handed out -/

theorem hasErrors_iff (c : Collector) : c.hasErrors = true ↔ c.errors ≠ [] := by
  have hlength : c.errors.length = c.held.length := Storage.length_read c.holds
  rw [hasErrors, decide_eq_true_iff, ← hlength, List.length_pos_iff]

theorem validate_of_nil {c : Collector} (h : c.errors = []) : c.validate = none :=
  if_neg fun herrors => c.hasErrors_iff.mp herrors h

theorem validate_of_ne_nil {c : Collector} (h : c.errors ≠ []) :
    c.validate = some ⟨FieldError.summary c.errors, c.held⟩ := if_pos (c.hasErrors_iff.mpr h)

/-- A new collector, however much room its storage makes. -/
def start (spare : Nat → Nat) : Collector := { storage := { spare } }

theorem errors_run_start (spare : Nat → Nat) (calls : List Call) :
    ((start spare).run calls).errors = logOf calls := errors_run (start spare) calls

/-- A new collector has one entry for each check that fails, in the order of the calls. It hands out no
error as long as there is none; else the error is about the input and has the entries of that time in its
message and in its details, and no later call changes anything of it. -/
theorem run_start_log (spare : Nat → Nat) (calls : List Call) :
    ((start spare).run calls).errors = logOf calls ∧
      ∀ before after, calls = before ++ .validate :: after →
        (logOf before = [] → (((start spare).run before).step .validate).2 = none) ∧
        (logOf before ≠ [] → ∃ v f, (((start spare).run before).step .validate).2 = some v ∧
          v.failure ((start spare).run before).storage = f ∧
          v.failure ((start spare).run calls).storage = f ∧
          f.code = Fault.invalidInputCode ∧ f.cause = none ∧
          f.message = Text.join (utf8 "; ")
            ((logOf before).map fun e => e.field ++ utf8 ": " ++ e.message) ∧
          f.details = some [(utf8 "fields", .array ((logOf before).map FieldError.toJson))]) := by
  refine ⟨errors_run_start spare calls, ?_⟩
  rintro before after rfl
  have herrors := errors_run_start spare before
  constructor
  · intro hnil
    exact validate_of_nil (herrors.trans hnil)
  · intro hne
    refine ⟨_, _, validate_of_ne_nil (herrors ▸ hne), rfl, ?_, rfl, rfl, ?_, ?_⟩
    · -- the list that was handed out is the collector's own at that time, so later calls write behind it
      rw [run_append, Verdict.failure, read_run ((start spare).run before).holds.spares]
      rfl
    · change FieldError.summary _ = _
      rw [herrors]
      rfl
    · change some [(utf8 "fields", FieldError.listed ((start spare).run before).errors)] = _
      rw [herrors]
      rfl

def earlyCalls : List Call :=
  [.probe (.required (utf8 "name") (utf8 " \t")), .validate,
    .probe (.maxCount (utf8 "tags") [utf8 "a"] 1),
    .probe (.oneOf (utf8 "mode") (utf8 "x") [utf8 "a", utf8 "b"])]

def lateCalls : List Call :=
  [.probe (.custom false (utf8 "size") (utf8 "is odd")), .probe (.custom true (utf8 "size") []), .validate,
    .probe (.addError (utf8 "end") (utf8 "is missing"))]

/-- The error lists the first two places of a block in which the collector goes on to fill four. -/
theorem run_start_log_shared :
    ∃ v f, (((start fun _ => 9).run earlyCalls).step .validate).2 = some v ∧
      v.failure ((start fun _ => 9).run (earlyCalls ++ .validate :: lateCalls)).storage = f ∧
      f.message = utf8 "name: is required; mode: must be one of: a, b" ∧ v.fields = ⟨1, 2⟩ ∧
      ((start fun _ => 9).run (earlyCalls ++ .validate :: lateCalls)).held = ⟨1, 4⟩ := by
  obtain ⟨v, f, hv, -, hf, -, -, hmessage, -⟩ :=
    ((run_start_log (fun _ => 9) (earlyCalls ++ .validate :: lateCalls)).2 earlyCalls lateCalls rfl).2
      (by decide +kernel)
  have hfields : (((start fun _ => 9).run earlyCalls).step .validate).2.map (·.fields) =
      some ⟨1, 2⟩ := by decide +kernel
  rw [hv] at hfields
  refine ⟨v, f, hv, hf, ?_, Option.some.inj hfields, by decide +kernel⟩
  rw [hmessage]
  decide +kernel

end Collector

end Check

end ServiceKit
