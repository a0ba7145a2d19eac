import Mathlib
import ServiceKit.Fault.Session
import ServiceKit.Proofs.Fault.Trees
import ServiceKit.Proofs.Keyed

/-!
What becomes of application errors that are shared. In every run of commands an application error stays
what it was made, but for the calls that reached it under one of its names.
-/

namespace ServiceKit.Fault

/-! ### Changes to one error -/

/-- What a call asks of an application error. -/
inductive Change where
  | cause (c : Option Ref)
  | details (ds : Keyed Detail)

namespace Change

def apply : Change → Fault Ref → Fault Ref
  | cause c, f => f.withCause c
  | details ds, f => f.withDetails ds

/-- Changes are made one after the other. -/
def applyAll : List Change → Fault Ref → Fault Ref
  | [], f => f
  | c :: cs, f => applyAll cs (c.apply f)

/-- The causes that are given, in their order. -/
def causes : List Change → List (Option Ref)
  | [] => []
  | cause c :: cs => c :: causes cs
  | details _ :: cs => causes cs

/-- The details that are given, in their order. -/
def given : List Change → List (Text × Detail)
  | [] => []
  | cause _ :: cs => given cs
  | details ds :: cs => ds ++ given cs

theorem map_applyAll_nil (f? : Option (Fault Ref)) : f?.map (applyAll []) = f? := by
  cases f? <;> rfl

theorem applyAll_append (cs ds : List Change) (f : Fault Ref) :
    applyAll (cs ++ ds) f = applyAll ds (applyAll cs f) := by
  induction cs generalizing f with
  | nil => rfl
  | cons c cs ih => exact ih (c.apply f)

theorem code_applyAll (cs : List Change) (f : Fault Ref) : (applyAll cs f).code = f.code := by
  induction cs generalizing f with
  | nil => rfl
  | cons c cs ih =>
      rw [applyAll, ih]
      cases c <;> rfl

theorem message_applyAll (cs : List Change) (f : Fault Ref) : (applyAll cs f).message = f.message := by
  induction cs generalizing f with
  | nil => rfl
  | cons c cs ih =>
      rw [applyAll, ih]
      cases c <;> rfl

/-- The last cause that was given counts. -/
theorem cause_applyAll (cs : List Change) (f : Fault Ref) :
    (applyAll cs f).cause = (causes cs).getLast?.getD f.cause := by
  induction cs generalizing f with
  | nil => rfl
  | cons c cs ih =>
      rw [applyAll, ih]
      cases c with
      | cause c => rw [causes, List.getLast?_cons, Option.getD_some]; rfl
      | details ds => rfl

/-- Of the details with one key the last one that was given counts, and else the one that was there. -/
theorem find?_details_applyAll (key : Text) (cs : List Change) (f : Fault Ref) :
    Keyed.find? key ((applyAll cs f).details.getD []) =
      (Keyed.find? key (given cs).reverse).or (Keyed.find? key (f.details.getD [])) := by
  induction cs generalizing f with
  | nil => rfl
  | cons c cs ih =>
      rw [applyAll, ih]
      cases c with
      | cause c => rfl
      | details ds =>
          have hdetails : (apply (details ds) f).details.getD [] = (f.details.getD []).putAll ds := rfl
          rw [hdetails, Keyed.find?_putAll_eq, given, List.reverse_append, Keyed.find?_append,
            Option.or_assoc]

theorem details_applyAll_eq_none_iff (cs : List Change) (f : Fault Ref) :
    (applyAll cs f).details = none ↔ f.details = none ∧ ∀ ds, details ds ∉ cs := by
  induction cs generalizing f with
  | nil => simp [applyAll]
  | cons c cs ih =>
      rw [applyAll, ih]
      cases c with
      | cause c => simp [apply, withCause]
      | details ds =>
          apply iff_of_false
          · rintro ⟨hnone, -⟩
            cases hnone
          · rintro ⟨-, hgiven⟩
            exact hgiven ds List.mem_cons_self

end Change

/-- The changes that an event makes to one error. -/
def Event.changesTo (r : Ref) : Event (Option Ref) → List Change
  | .withCause target cause => if target = some r then [.cause cause] else []
  | .withDetail target key value => if target = some r then [.details [(key, value)]] else []
  | .withDetails target details => if target = some r then [.details details] else []
  | _ => []

/-! ### One event -/

namespace Store

variable {s : Store} {r : Ref}

theorem fault?_eq_some_iff {f : Fault Ref} : s.fault? r = some f ↔ s.get? r = some (.app f) := by
  rw [fault?]
  split
  · rename_i g hget
    rw [hget, Option.some.injEq, Option.some.injEq, Node.app.injEq]
  · rename_i hget
    constructor
    · intro h
      cases h
    · intro h
      exact absurd h (hget f)

theorem fault?_add (h : r < s.size) (n : Node) : (s.add n).1.fault? r = s.fault? r := by
  rw [fault?, fault?, get?_add h]

theorem size_add (s : Store) (n : Node) : (s.add n).1.size = s.size + 1 := List.length_append

theorem size_update (s : Store) (q : Ref) (change : Fault Ref → Fault Ref) :
    (s.update q change).size = s.size := by
  rw [update]
  split
  · exact List.length_set
  · rfl

theorem fault?_update (s : Store) (q r : Ref) (change : Fault Ref → Fault Ref) :
    (s.update q change).fault? r = if q = r then (s.fault? r).map change else s.fault? r := by
  rw [update]
  cases hq : s.fault? q with
  | none =>
      by_cases h : q = r
      · subst h
        rw [if_pos rfl, hq]
        rfl
      · rw [if_neg h]
  | some f =>
      have hlt := lt_size (fault?_eq_some_iff.mp hq)
      by_cases h : q = r
      · subst h
        rw [if_pos rfl, hq, Option.map_some, fault?_eq_some_iff]
        exact List.getElem?_set_self hlt
      · rw [if_neg h, fault?, fault?, get?, get?, List.getElem?_set_ne h]

/-- What can become of a store: it stays as it is, an error is added, or an application error is
changed. -/
inductive Effect (s : Store) (e : Event (Option Ref)) : Store → Prop
  | stay : (∀ r, e.changesTo r = []) → Effect s e s
  | add (n : Node) : (∀ r, e.changesTo r = []) → Effect s e (s.add n).1
  | change (q : Ref) (c : Change) : (∀ r, e.changesTo r = if q = r then [c] else []) →
      Effect s e (s.update q c.apply)

theorem effect_change {e : Event (Option Ref)} {target : Option Ref} {c : Change}
    (h : ∀ r, e.changesTo r = if target = some r then [c] else []) :
    s.Effect e (s.change target c.apply).1 := by
  cases target with
  | none =>
      apply Effect.stay
      intro r
      rw [h, if_neg (Option.some_ne_none r).symm]
  | some q =>
      apply Effect.change
      intro r
      rw [h]
      exact if_congr Option.some_inj rfl rfl

theorem effect_step (s : Store) (e : Event (Option Ref)) : s.Effect e (s.step e).1 := by
  cases e with
  | plain t => exact .add _ fun r => rfl
  | fresh code message => exact .add _ fun r => rfl
  | invalidInput field reason => exact .add _ fun r => rfl
  | validation message => exact .add _ fun r => rfl
  | missingField field => exact .add _ fun r => rfl
  | invalidFormat field expected => exact .add _ fun r => rfl
  | internal cause => exact .add _ fun r => rfl
  | wrapText lead inner => exact .add _ fun r => rfl
  | join members =>
      rw [step]
      split
      · exact .stay fun r => rfl
      · exact .add _ fun r => rfl
  | wrap inner =>
      cases inner with
      | none => exact .stay fun r => rfl
      | some q =>
          rw [step]
          cases hfound : s.asFault? (some q) with
          | some p =>
              rw [wrap_of_some hfound]
              exact .stay fun r => rfl
          | none =>
              rw [wrap_of_none hfound]
              exact .add _ fun r => rfl
  | withCause target cause => exact effect_change (c := .cause cause) fun r => rfl
  | withDetail target key value => exact effect_change (c := .details [(key, value)]) fun r => rfl
  | withDetails target details => exact effect_change (c := .details details) fun r => rfl

theorem size_le_step (s : Store) (e : Event (Option Ref)) : s.size ≤ (s.step e).1.size := by
  have h := s.effect_step e
  generalize (s.step e).1 = s' at h ⊢
  cases h with
  | stay => exact Nat.le_refl _
  | add n =>
      rw [size_add]
      exact Nat.le_succ _
  | change q c => rw [size_update]

/-- Nothing is done to an error that is there but the changes that an event makes to it. -/
theorem fault?_step (hr : r < s.size) (e : Event (Option Ref)) :
    (s.step e).1.fault? r = (s.fault? r).map (Change.applyAll (e.changesTo r)) := by
  have h := s.effect_step e
  generalize (s.step e).1 = s' at h ⊢
  cases h with
  | stay hto => rw [hto, Change.map_applyAll_nil]
  | add n hto => rw [hto, Change.map_applyAll_nil, fault?_add hr]
  | change q c hto =>
      rw [hto, fault?_update]
      split
      · rfl
      · rw [Change.map_applyAll_nil]

end Store

/-! ### Runs -/

namespace Session

/-- The changes that commands make to one error, under whatever name it has when they are given. -/
def changesTo (r : Ref) : Session → List Command → List Change
  | _, [] => []
  | s, c :: cs => (c.event.map s.ref?).changesTo r ++ changesTo r (s.step c).1 cs

theorem store_step (s : Session) (c : Command) :
    (s.step c).1.store = (s.store.step (c.event.map s.ref?)).1 := by
  rw [step]
  cases c.into <;> rfl

theorem run_cons (s : Session) (c : Command) (cs : List Command) :
    s.run (c :: cs) = (s.step c).1.run cs := rfl

theorem run_append (s : Session) (cs ds : List Command) : s.run (cs ++ ds) = (s.run cs).run ds :=
  List.foldl_append

/-- An error that is there before a run is changed only by the commands that reach it. -/
theorem fault?_run {s : Session} {r : Ref} (h : r < s.store.size) (commands : List Command) :
    (s.run commands).store.fault? r =
      (s.store.fault? r).map (Change.applyAll (s.changesTo r commands)) := by
  induction commands generalizing s with
  | nil => exact (Change.map_applyAll_nil _).symm
  | cons c cs ih =>
      have hsize : r < (s.step c).1.store.size := by
        rw [store_step]
        exact Nat.lt_of_lt_of_le h (s.store.size_le_step _)
      rw [run_cons, ih hsize, store_step, Store.fault?_step h, Option.map_map, changesTo]
      congr 1
      funext f
      exact (Change.applyAll_append _ _ f).symm

/-- A command makes an application error: it was not there before. -/
def Makes (s : Session) (c : Command) (r : Ref) (f : Fault Ref) : Prop :=
  s.store.get? r = none ∧ (s.step c).1.store.fault? r = some f

/-- An application error that was not there before a run was made by one of its commands. -/
theorem exists_makes {s : Session} {r : Ref} {g : Fault Ref} {commands : List Command}
    (hnew : s.store.get? r = none) (h : (s.run commands).store.fault? r = some g) :
    ∃ before c after f, commands = before ++ c :: after ∧ (s.run before).Makes c r f := by
  induction commands generalizing s with
  | nil =>
      rw [Store.fault?_eq_some_iff] at h
      cases h.symm.trans hnew
  | cons c cs ih =>
      cases hget : (s.step c).1.store.get? r with
      | none =>
          obtain ⟨before, d, after, f, rfl, hmakes⟩ := ih hget h
          exact ⟨c :: before, d, after, f, rfl, hmakes⟩
      | some n =>
          rw [run_cons, fault?_run (Store.lt_size hget)] at h
          obtain ⟨f, hf, -⟩ := Option.map_eq_some_iff.mp h
          exact ⟨[], c, cs, f, rfl, hnew, hf⟩

/-- The application errors of a run are those that its commands made. Code and message of such an error
never change; its cause is the last one that it was given, and each of its details is the last one that was
given under its key, by the commands that reached the error under any of its names. Where none was given it
has what it was made with, and it has details at all if it was made with some or was given some. -/
theorem run_history (commands : List Command) :
    (∀ r g, (run {} commands).store.fault? r = some g →
      ∃ before c after f, commands = before ++ c :: after ∧ (run {} before).Makes c r f) ∧
      ∀ before c after r f, commands = before ++ c :: after → (run {} before).Makes c r f →
        ∃ g changes, changes = ((run {} before).step c).1.changesTo r after ∧
          (run {} commands).store.fault? r = some g ∧ g.code = f.code ∧ g.message = f.message ∧
          g.cause = (Change.causes changes).getLast?.getD f.cause ∧
          (∀ key, Keyed.find? key (g.details.getD []) =
            (Keyed.find? key (Change.given changes).reverse).or
              (Keyed.find? key (f.details.getD []))) ∧
          (g.details = none ↔ f.details = none ∧ ∀ ds, .details ds ∉ changes) ∧
          (changes = [] → g = f) := by
  constructor
  · intro r g h
    exact exists_makes rfl h
  · rintro before c after r f rfl ⟨-, hmade⟩
    refine ⟨_, _, rfl, ?_, Change.code_applyAll _ f, Change.message_applyAll _ f,
      Change.cause_applyAll _ f, fun key => Change.find?_details_applyAll key _ f,
      Change.details_applyAll_eq_none_iff _ f, ?_⟩
    · have hlt := Store.lt_size (Store.fault?_eq_some_iff.mp hmade)
      rw [run_append, run_cons, fault?_run hlt, hmade]
      rfl
    · intro hnone
      rw [hnone]
      rfl

/-- An error under three names, one of them got by wrapping a wrapper, and another error with the same
detail. -/
def sharedCommands : List Command :=
  [⟨.wrapText (utf8 "saving") (utf8 "x"), some (utf8 "y")⟩,
    ⟨.wrap (utf8 "y"), some (utf8 "z")⟩,
    ⟨.withDetail (utf8 "z") (utf8 "try") (.number (.int 1)), none⟩,
    ⟨.fresh (utf8 "E") (utf8 "full"), some (utf8 "other")⟩,
    ⟨.withDetail (utf8 "other") (utf8 "try") (.number (.int 2)), none⟩,
    ⟨.withCause (utf8 "x") (utf8 "other"), some (utf8 "w")⟩,
    ⟨.withDetails (utf8 "w") [(utf8 "try", .number (.int 3)), (utf8 "unit", .string [])], none⟩]

theorem run_history_shared :
    ∃ g, (run {} (⟨.fresh (utf8 "E") (utf8 "full"), some (utf8 "x")⟩ :: sharedCommands)).store.fault? 0 =
        some g ∧ g.code = utf8 "E" ∧ g.message = utf8 "full" ∧ g.cause = some 2 ∧
      Keyed.find? (utf8 "try") (g.details.getD []) = some (.number (.int 3)) ∧
      Keyed.find? (utf8 "unit") (g.details.getD []) = some (.string []) := by
  obtain ⟨g, changes, hchanges, hg, hcode, hmessage, hcause, hdetails, -⟩ :=
    (run_history _).2 [] ⟨.fresh (utf8 "E") (utf8 "full"), some (utf8 "x")⟩ sharedCommands 0
      ⟨utf8 "E", utf8 "full", none, none⟩ rfl ⟨rfl, rfl⟩
  subst hchanges
  exact ⟨g, hg, hcode, hmessage, hcause, hdetails _, hdetails _⟩

end Session

end ServiceKit.Fault
