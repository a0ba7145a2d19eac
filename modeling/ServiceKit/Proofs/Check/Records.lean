import Mathlib
import ServiceKit.Check.Record
import ServiceKit.Proofs.Text.Pieces

/-!
Checks of records. The chain of a text is followed from its left end, the fields of a record are checked
one after the other, and what is found stands in their order.
-/

namespace ServiceKit.Check

variable {others : OtherTests}

/-! ### Chains -/

theorem checkLeaf_omitEmpty (space name : Text) (rest : List Rule) (s : Text) :
    checkLeaf others space name false (.omitEmpty :: rest) (.string s) =
      if s = [] then .ok [] else checkLeaf others space name false rest (.string s) := by
  cases s <;> rfl

theorem checkLeaf_test (space name : Text) (t : NamedTest) (rest : List Rule) {s : Text} {b : Bool}
    (h : t.passes others false (.string s) = .ok b) :
    checkLeaf others space name false (.test t :: rest) (.string s) =
      if b then checkLeaf others space name false rest (.string s)
      else .ok [fieldError space name t.name (t.param.getD [])] := by
  rw [checkLeaf, runChain, h]
  cases b <;> rfl

theorem checkValue_test (space name : Text) (t : NamedTest) {s : Text} {b : Bool}
    (h : t.passes others false (.string s) = .ok b) :
    checkValue others space name false [.test t] (.string s) =
      .ok (if b then [] else [fieldError space name t.name (t.param.getD [])]) := by
  rw [checkValue, checkLeaf_test space name t [] h]
  cases b <;> rfl

/-! ### Fields -/

theorem exists_of_bind_ok {α β ε : Type} {x : Except ε α} {f : α → Except ε β} {b : β}
    (h : (x >>= f) = .ok b) : ∃ a, x = .ok a ∧ f a = .ok b := by
  cases x with
  | error e => cases h
  | ok a => exact ⟨a, rfl, h⟩

theorem mapM_map_ok {α β γ ε : Type} {f : β → Except ε γ} {g : α → β} {h : α → γ} {xs : List α}
    (hf : ∀ x ∈ xs, f (g x) = .ok (h x)) : (xs.map g).mapM f = .ok (xs.map h) := by
  induction xs with
  | nil => rfl
  | cons x xs ih =>
      obtain ⟨hx, hxs⟩ := List.forall_mem_cons.mp hf
      rw [List.map_cons, List.mapM_cons, hx, ih hxs]
      rfl

theorem checkFields_cons {space : Text} {f : Field} {chain : List Rule} {v : Value}
    {found more : List FieldError} {chains : List (Option (List Rule))} {fields : List (Field × Value)}
    (hfound : checkValue others space f.publicName false chain v = .ok found)
    (hmore : checkFields others space chains fields = .ok more) :
    checkFields others space (some chain :: chains) ((f, v) :: fields) = .ok (found ++ more) := by
  rw [checkFields, hfound, hmore]
  rfl

/-- What is found in a field under its chain, and nothing in a field without one. -/
def foundIn (others : OtherTests) (space : Text) (chain? : Option (List Rule)) (f : Field × Value) :
    Except TagFault (List FieldError) :=
  match chain? with
  | some chain => checkValue others space f.1.publicName false chain f.2
  | none => .ok []

/-- If the check of each field comes to an end, so does that of all, and nothing is lost or moved. -/
theorem checkFields_map {α : Type} {space : Text} {entry : α → Field × Value}
    {chain? : α → Option (List Rule)} {found : α → List FieldError} {xs : List α}
    (h : ∀ x ∈ xs, foundIn others space (chain? x) (entry x) = .ok (found x)) :
    checkFields others space (xs.map chain?) (xs.map entry) = .ok (xs.flatMap found) := by
  induction xs with
  | nil => rfl
  | cons x xs ih =>
      obtain ⟨hx, hxs⟩ := List.forall_mem_cons.mp h
      rw [List.map_cons, List.map_cons, List.flatMap_cons]
      cases hchain : chain? x with
      | some chain =>
          rw [hchain] at hx
          exact checkFields_cons hx (ih hxs)
      | none =>
          rw [hchain] at hx
          rw [checkFields, ih hxs, ← Except.ok.inj hx, List.nil_append]

theorem checkValue_record {space name : Text} {fields : List (Field × Value)}
    {chains : List (Option (List Rule))}
    (hchains : (fields.mapM fun f => fieldChain others f.1) = .ok chains) :
    checkValue others space name false [] (.record fields) =
      checkFields others (space ++ name ++ [0x2E]) chains fields := by
  rw [checkValue, runChain]
  change ((fields.mapM fun f => fieldChain others f.1) >>= fun chains =>
    checkFields others _ chains fields) = _
  rw [hchains]
  rfl

/-- What stands before the names of the fields of a whole record. -/
def rootSpace (typeName : Text) : Text := if typeName.isEmpty then [] else typeName ++ [0x2E]

theorem validate_of_chains {typeName : Text} {fields : List (Field × Value)}
    {chains : List (Option (List Rule))} {errors : List FieldError}
    (hchains : (fields.mapM fun f => fieldChain others f.1) = .ok chains)
    (herrors : checkFields others (rootSpace typeName) chains fields = .ok errors) :
    validate others (.record typeName fields) = .ok (FieldError.failure? errors) := by
  rw [validate, checkRecord, hchains]
  exact congrArg (fun r => r >>= fun es => Except.ok (FieldError.failure? es)) herrors

/-! ### The error for all that is found -/

theorem failure?_eq_none_iff {errors : List FieldError} :
    FieldError.failure? errors = none ↔ errors = [] := by
  cases errors with
  | nil => exact ⟨fun _ => rfl, fun _ => rfl⟩
  | cons e errors =>
      constructor
      · intro h
        cases h
      · intro h
        cases h

theorem failure?_eq_some {errors : List FieldError} {f : Failure}
    (h : FieldError.failure? errors = some f) : f = FieldError.failure errors := by
  cases errors with
  | nil => cases h
  | cons e errors => exact (Option.some.inj h).symm

theorem code_of_failure? {errors : List FieldError} {f : Failure}
    (h : FieldError.failure? errors = some f) : f.code = Fault.invalidInputCode := by
  rw [failure?_eq_some h]
  rfl

/-! ### Places in a record -/

/-- The path by which a field is reported, by the names of all fields from some record down to it. -/
def pathAt (space : Text) (names : List Text) : Text :=
  reportedPath (space ++ Text.join [0x2E] names) (names.getLast?.getD [])

theorem fieldError_eq (space name rule param : Text) :
    fieldError space name rule param = ⟨pathAt space [name], ruleMessage rule param⟩ := rfl

theorem pathAt_cons (space name : Text) {names : List Text} (h : names ≠ []) :
    pathAt space (name :: names) = pathAt (space ++ name ++ [0x2E]) names := by
  obtain ⟨n, ns, rfl⟩ := List.exists_cons_of_ne_nil h
  rw [pathAt, pathAt, Text.join_cons_cons, List.getLast?_cons_cons]
  simp only [List.append_assoc]

end ServiceKit.Check
