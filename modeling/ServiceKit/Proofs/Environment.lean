import Mathlib
import ServiceKit.Config.Loader
import ServiceKit.Proofs.Keyed

/-!
Environments seen through a part of their variables. Looking a variable up and adding variables that
are missing do to the part what they do to the whole.
-/

namespace ServiceKit

namespace Environment

/-- The variables with names of some kind. -/
def only (keep : Text → Bool) (env : Environment) : Environment := env.filter fun e => keep e.1

variable {keep : Text → Bool}

theorem find?_only {name : Text} (h : keep name = true) (env : Environment) :
    find? name (only keep env) = find? name env := by
  induction env with
  | nil => rfl
  | cons e env ih =>
      rw [only, List.filter_cons]
      split
      · rw [find?, find?]
        exact if_congr Iff.rfl rfl ih
      · rename_i hkeep
        have hne : name ≠ e.1 := fun he => hkeep (he ▸ h)
        rw [find?, if_neg hne]
        exact ih

theorem find?_congr {name : Text} (h : keep name = true) {env env' : Environment}
    (henv : only keep env = only keep env') : find? name env = find? name env' := by
  rw [← find?_only h env, henv, find?_only h env']

theorem only_addMissing (keep : Text → Bool) (env : Environment) (added : List (Text × Text)) :
    only keep (addMissing env added) = addMissing (only keep env) (only keep added) := by
  rw [addMissing, addMissing, only, List.filter_append, only, only, List.filter_filter,
    List.filter_filter]
  congr 1
  refine List.filter_congr fun e _ => ?_
  cases hkeep : keep e.1 with
  | false => rw [Bool.false_and, Bool.and_false]
  | true =>
      have hset : isSet e.1 (env.filter fun e => keep e.1) = isSet e.1 env :=
        congrArg Option.isSome (find?_only hkeep env)
      rw [hset, Bool.true_and, Bool.and_true]

theorem addMissing_nil (env : Environment) : addMissing env [] = env := List.append_nil env

theorem only_insert (keep : Text → Bool) {name : Text} (hname : keep name = false) (value : Text)
    (before after : Environment) :
    only keep (before ++ (name, value) :: after) = only keep (before ++ after) := by
  simp [only, hname]

theorem find?_append (name : Text) (env more : Environment) :
    find? name (env ++ more) = (find? name env).or (find? name more) := by
  induction env with
  | nil => rfl
  | cons e env ih =>
      rw [List.cons_append, find?, find?, ih]
      split <;> rfl

theorem mem_of_find? {name value : Text} {env : Environment} (h : find? name env = some value) :
    (name, value) ∈ env := by
  induction env with
  | nil => cases h
  | cons e env ih =>
      rw [find?] at h
      split at h
      next hname =>
        rw [hname, ← Option.some.inj h]
        exact List.mem_cons_self
      next => exact List.mem_cons_of_mem _ (ih h)

/-- What is set stays as it is. -/
theorem find?_addMissing {name value : Text} {env : Environment} (h : find? name env = some value)
    (added : List (Text × Text)) : find? name (addMissing env added) = some value := by
  rw [addMissing, find?_append, h, Option.some_or]

/-- What is set only after variables are added is one of them. -/
theorem mem_of_find?_addMissing {name value : Text} {env : Environment} (h : find? name env = none)
    {added : List (Text × Text)} (hadded : find? name (addMissing env added) = some value) :
    (name, value) ∈ added := by
  rw [addMissing, find?_append, h, Option.none_or] at hadded
  exact (List.mem_filter.mp (mem_of_find? hadded)).1

theorem isSet_append (name : Text) (env more : Environment) :
    isSet name (env ++ more) = (isSet name env || isSet name more) := by
  rw [isSet, find?_append]
  exact Option.isSome_or

theorem isSet_of_mem {e : Text × Text} {env : Environment} (h : e ∈ env) : isSet e.1 env = true := by
  induction env with
  | nil => cases h
  | cons e' env ih =>
      rw [isSet, find?]
      split
      · rfl
      next hne =>
        rcases List.mem_cons.mp h with rfl | h
        · exact absurd rfl hne
        · exact ih h

/-- Variables that were added once are not missing any more. -/
theorem addMissing_addMissing (env : Environment) {added more : List (Text × Text)}
    (h : ∀ e ∈ more, e ∈ added) : (env.addMissing added).addMissing more = env.addMissing added := by
  rw [addMissing, List.append_right_eq_self, List.filter_eq_nil_iff]
  intro e he hmissing
  obtain ⟨hsettable, hunset⟩ := (Bool.and_eq_true _ _).mp hmissing
  rw [addMissing, isSet_append, Bool.not_eq_true', Bool.or_eq_false_iff] at hunset
  have hnew : e ∈ added.filter fun e => isSettable e.1 e.2 && !isSet e.1 env := by
    refine List.mem_filter.mpr ⟨h e he, ?_⟩
    rw [hsettable, hunset.1]
    rfl
  have hset := isSet_of_mem hnew
  rw [hunset.2] at hset
  cases hset

theorem find?_eq_some_of_mem {name value : Text} {env : Environment}
    (hdistinct : (env.map Prod.fst).Nodup) (h : (name, value) ∈ env) : find? name env = some value := by
  induction env with
  | nil => cases h
  | cons e env ih =>
      rw [List.map_cons, List.nodup_cons] at hdistinct
      rw [find?]
      rcases List.mem_cons.mp h with rfl | h
      · exact if_pos rfl
      · have hne : name ≠ e.1 := fun he => hdistinct.1 (List.mem_map.mpr ⟨(name, value), h, he⟩)
        rw [if_neg hne]
        exact ih hdistinct.2 h

/-- Of variables with different names, what a name stands for is added unless the name is set. -/
theorem find?_addMissing_of_distinct {added : List (Text × Text)}
    (hdistinct : (added.map Prod.fst).Nodup) (name : Text) (env : Environment) :
    find? name (env.addMissing added) =
      (find? name env).or ((find? name added).filter fun value => isSettable name value) := by
  rw [addMissing, find?_append]
  cases hset : find? name env with
  | some value => rfl
  | none =>
      have hunset : isSet name env = false := by
        rw [isSet, hset]
        rfl
      rw [Option.none_or, Option.none_or]
      have hkept : ((added.filter fun e => isSettable e.1 e.2 && !isSet e.1 env).map Prod.fst).Nodup :=
        hdistinct.sublist (List.filter_sublist.map Prod.fst)
      have hiff : ∀ value,
          find? name (added.filter fun e => isSettable e.1 e.2 && !isSet e.1 env) = some value ↔
            ((find? name added).filter fun value => isSettable name value) = some value := by
        intro value
        rw [Option.filter_eq_some_iff]
        constructor
        · intro h
          obtain ⟨hmem, hkeep⟩ := List.mem_filter.mp (mem_of_find? h)
          exact ⟨find?_eq_some_of_mem hdistinct hmem, (Bool.and_eq_true_iff.mp hkeep).1⟩
        · rintro ⟨h, hsettable⟩
          refine find?_eq_some_of_mem hkept (List.mem_filter.mpr ⟨mem_of_find? h, ?_⟩)
          rw [hsettable, hunset]
          rfl
      exact Option.ext hiff

theorem nodup_addMissing {env : Environment} (henv : (env.map Prod.fst).Nodup)
    {added : List (Text × Text)} (hadded : (added.map Prod.fst).Nodup) :
    ((env.addMissing added).map Prod.fst).Nodup := by
  rw [addMissing, List.map_append, List.nodup_append]
  refine ⟨henv, hadded.sublist (List.filter_sublist.map Prod.fst), ?_⟩
  intro a ha b hb heq
  obtain ⟨e, he, rfl⟩ := List.mem_map.mp ha
  obtain ⟨e', he', rfl⟩ := List.mem_map.mp hb
  have hkeep := (Bool.and_eq_true_iff.mp (List.mem_filter.mp he').2).2
  rw [← heq, isSet_of_mem he] at hkeep
  cases hkeep

end Environment

namespace Config

/-- Does an access add to every environment the same variables, or fail for every one? -/
def Access.Adds (a : Access) : Prop :=
  ∀ path, ∃ r : Except Text (List (Text × Text)), ∀ env, a.loadEnv path env = env.addAssigned r

theorem VariableFile.sorted_statements {fuel : Nat} {known entries : Keyed Text} {s : Text}
    (hknown : Keyed.Sorted known) (h : statements fuel known s = .ok entries) :
    Keyed.Sorted entries := by
  induction fuel generalizing known s with
  | zero =>
      cases h
      exact hknown
  | succ fuel ih =>
      rw [statements] at h
      cases hnext : nextStatement (s.length + 1) s with
      | nil =>
          rw [hnext] at h
          cases h
          exact hknown
      | cons b rest =>
          rw [hnext] at h
          change (nameOf (b :: rest) >>= fun name => valueOf known name.2 >>= fun value =>
            statements fuel (Keyed.put name.1 value.1 known) value.2) = _ at h
          cases hname : nameOf (b :: rest) with
          | error e =>
              rw [hname] at h
              cases h
          | ok name =>
              rw [hname] at h
              change (valueOf known name.2 >>= fun value =>
                statements fuel (Keyed.put name.1 value.1 known) value.2) = _ at h
              cases hvalue : valueOf known name.2 with
              | error e =>
                  rw [hvalue] at h
                  cases h
              | ok value =>
                  rw [hvalue] at h
                  exact ih (hknown.put name.1 value.1) h

/-- A file of variables assigns the same in every order, and each name once. -/
theorem Files.assigned_cases (files : Files) (path : Text) :
    (∃ why, ∀ order, files.assigned order path = .error why) ∨
      ∃ found : Keyed Text, Keyed.Sorted found ∧
        ∀ order, files.assigned order path = .ok (order.arrange found) := by
  cases hcontent : files.content path with
  | error why =>
      refine .inl ⟨why, fun order => ?_⟩
      rw [Files.assigned, hcontent]
      rfl
  | ok s =>
      cases hread : VariableFile.read s with
      | error mistake =>
          refine .inl ⟨mistake.message, fun order => ?_⟩
          rw [Files.assigned, hcontent]
          change ((VariableFile.read s).mapError _ >>= _) = _
          rw [hread]
          rfl
      | ok found =>
          refine .inr ⟨found, VariableFile.sorted_statements List.Pairwise.nil hread, fun order => ?_⟩
          rw [Files.assigned, hcontent]
          change ((VariableFile.read s).mapError _ >>= _) = _
          rw [hread]
          rfl

theorem Files.nodup_assigned {files : Files} {order : MapOrder} {path : Text}
    {entries : List (Text × Text)} (h : files.assigned order path = .ok entries) :
    (entries.map Prod.fst).Nodup := by
  rcases files.assigned_cases path with ⟨why, hwhy⟩ | ⟨found, hfound, hok⟩
  · rw [hwhy] at h
    cases h
  · rw [hok] at h
    cases h
    exact ((order.arrange_perm found).map Prod.fst).nodup_iff.mpr hfound.nodup_keys

theorem Files.adds_access (files : Files) (order : MapOrder) : (files.access order).Adds := by
  intro path
  exact ⟨files.assigned order path, fun _ => rfl⟩

end Config

end ServiceKit
