import Mathlib
import ServiceKit.Fault.Store

/-!
Errors inside errors as trees. The search through an error that is a tree goes depth first and from left
to right, and reaches all of it: no way down is longer than there are errors.
-/

namespace ServiceKit.Fault

/-! ### Trees of errors -/

/-- An error with all errors inside it. -/
inductive Tree where
  | node (root : Ref) (inner : List Tree)

namespace Tree

def root : Tree → Ref
  | node r _ => r

mutual

/-- The errors of a tree in pre-order: each one before those inside it, and these from left to right. -/
def refs : Tree → List Ref
  | node r ts => r :: forestRefs ts

def forestRefs : List Tree → List Ref
  | [] => []
  | t :: ts => refs t ++ forestRefs ts

end

theorem forestRefs_eq (ts : List Tree) : forestRefs ts = ts.flatMap refs := by
  induction ts with
  | nil => rfl
  | cons t ts ih => rw [forestRefs, ih, List.flatMap_cons]

theorem length_refs_lt {r : Ref} {t : Tree} {ts : List Tree} (h : t ∈ ts) :
    t.refs.length < (node r ts).refs.length := by
  rw [refs, List.length_cons, forestRefs_eq, List.length_flatMap]
  exact Nat.lt_succ_of_le (List.single_le_sum (fun _ _ => Nat.zero_le _) _ (List.mem_map_of_mem h))

end Tree

namespace Store

variable {s : Store}

/-- The error at the root of a tree has just the errors of the tree inside it. An error is finite and not
inside itself if it is the root of such a tree. -/
inductive Shows (s : Store) : Tree → Prop
  | node {r : Ref} {n : Node} {ts : List Tree} : s.get? r = some n → n.inner = ts.map Tree.root →
      (∀ t ∈ ts, Shows s t) → Shows s (.node r ts)

theorem inner_eq {r : Ref} {n : Node} (h : s.get? r = some n) : s.inner r = n.inner := by
  rw [inner, h]

theorem lt_size {r : Ref} {n : Node} (h : s.get? r = some n) : r < s.size :=
  (List.getElem?_eq_some_iff.mp h).1

theorem Shows.root_lt {t : Tree} (h : s.Shows t) : t.root < s.size := by
  cases h with
  | node hget _ _ => exact lt_size hget

theorem forest_unique {ts us : List Tree}
    (h : ∀ t ∈ ts, ∀ u, s.Shows u → t.root = u.root → t = u) (hus : ∀ u ∈ us, s.Shows u)
    (hroots : ts.map Tree.root = us.map Tree.root) : ts = us := by
  induction ts generalizing us with
  | nil => exact (List.map_eq_nil_iff.mp hroots.symm).symm
  | cons t ts ih =>
      obtain ⟨u, us, rfl, hroot, hrest⟩ := List.map_eq_cons_iff.mp hroots.symm
      obtain ⟨ht, hts⟩ := List.forall_mem_cons.mp h
      obtain ⟨hu, hus⟩ := List.forall_mem_cons.mp hus
      rw [ht u hu hroot.symm, ih hts hus hrest.symm]

/-- An error is the root of one tree at most. -/
theorem Shows.unique {t u : Tree} (ht : s.Shows t) (hu : s.Shows u) (hroot : t.root = u.root) :
    t = u := by
  induction ht generalizing u with
  | @node r n ts hget hinner _ ih =>
      cases hu with
      | @node r' n' us hget' hinner' hus =>
          obtain rfl : r = r' := hroot
          obtain rfl : n = n' := Option.some.inj (hget.symm.trans hget')
          rw [forest_unique (fun t ht u => ih t ht) hus (hinner.symm.trans hinner')]

theorem exists_forest {rs : List Ref} (h : ∀ r ∈ rs, ∃ t, s.Shows t ∧ t.root = r) :
    ∃ ts : List Tree, rs = ts.map Tree.root ∧ ∀ t ∈ ts, s.Shows t := by
  induction rs with
  | nil => exact ⟨[], rfl, fun t ht => absurd ht List.not_mem_nil⟩
  | cons r rs ih =>
      obtain ⟨⟨t, ht, rfl⟩, hrs⟩ := List.forall_mem_cons.mp h
      obtain ⟨ts, rfl, hts⟩ := ih hrs
      exact ⟨t :: ts, rfl, List.forall_mem_cons.mpr ⟨ht, hts⟩⟩

/-- The errors that are roots of trees are those from which every way down comes to an end, and none of
them outside the store. -/
theorem exists_shows_iff {r : Ref} :
    (∃ t, s.Shows t ∧ t.root = r) ↔
      Acc (fun q p => q ∈ s.inner p) r ∧
        ∀ q, Relation.ReflTransGen (fun p q => q ∈ s.inner p) r q → q < s.size := by
  constructor
  · rintro ⟨t, ht, rfl⟩
    induction ht with
    | @node r n ts hget hinner _ ih =>
        have hbelow {q : Ref} (hq : q ∈ s.inner r) : ∃ t ∈ ts, t.root = q := by
          rwa [inner_eq hget, hinner, List.mem_map] at hq
        constructor
        · apply Acc.intro
          intro q hq
          obtain ⟨t, ht, rfl⟩ := hbelow hq
          exact (ih t ht).1
        · intro q hq
          rcases hq.cases_head with rfl | ⟨p, hp, hq⟩
          · exact lt_size hget
          · obtain ⟨t, ht, rfl⟩ := hbelow hp
            exact (ih t ht).2 q hq
  · rintro ⟨hacc, hlt⟩
    induction hacc with
    | intro r _ ih =>
        obtain ⟨n, hget⟩ : ∃ n, s.get? r = some n := ⟨_, List.getElem?_eq_getElem (hlt r .refl)⟩
        have hinner : ∀ q ∈ s.inner r, ∃ t, s.Shows t ∧ t.root = q := by
          intro q hq
          exact ih q hq fun p hp => hlt p (.head hq hp)
        rw [inner_eq hget] at hinner
        obtain ⟨ts, hroots, hts⟩ := exists_forest hinner
        exact ⟨.node r ts, .node hget hroots hts, rfl⟩

/-! ### Searching a tree -/

/-- The errors on the way down to a tree: all different, and each with the tree inside it. -/
structure Above (s : Store) (path : List Ref) (t : Tree) : Prop where
  nodup : path.Nodup
  larger : ∀ r ∈ path, ∃ u, s.Shows u ∧ u.root = r ∧ t.refs.length < u.refs.length

theorem Above.not_mem {path : List Ref} {t : Tree} (h : s.Above path t) (ht : s.Shows t) :
    t.root ∉ path := by
  intro hmem
  obtain ⟨u, hu, hroot, hlt⟩ := h.larger _ hmem
  rw [hu.unique ht hroot] at hlt
  exact Nat.lt_irrefl _ hlt

/-- There are more errors than stand above one. -/
theorem Above.length_lt {path : List Ref} {t : Tree} (h : s.Above path t) (ht : s.Shows t) :
    path.length < s.size := by
  have hnodup : (t.root :: path).Nodup := List.nodup_cons.mpr ⟨h.not_mem ht, h.nodup⟩
  have hsubset : t.root :: path ⊆ List.range s.size := by
    intro r hr
    rw [List.mem_range]
    rcases List.mem_cons.mp hr with rfl | hr
    · exact ht.root_lt
    · obtain ⟨u, hu, rfl, -⟩ := h.larger r hr
      exact hu.root_lt
  have hlength := (hnodup.subperm hsubset).length_le
  rwa [List.length_cons, List.length_range] at hlength

theorem Above.inner {path : List Ref} {r : Ref} {t : Tree} {ts : List Tree}
    (h : s.Above path (.node r ts)) (hts : s.Shows (.node r ts)) (ht : t ∈ ts) :
    s.Above (r :: path) t := by
  have hlt : t.refs.length < (Tree.node r ts).refs.length := Tree.length_refs_lt ht
  refine ⟨List.nodup_cons.mpr ⟨h.not_mem hts, h.nodup⟩, ?_⟩
  intro q hq
  rcases List.mem_cons.mp hq with rfl | hq
  · exact ⟨_, hts, rfl, hlt⟩
  · obtain ⟨u, hu, hroot, hlarger⟩ := h.larger q hq
    exact ⟨u, hu, hroot, hlt.trans hlarger⟩

theorem findSome?_roots {test : Ref → Bool} {f : Ref → Option Ref} {ts : List Tree}
    (h : ∀ t ∈ ts, f t.root = t.refs.find? test) :
    (ts.map Tree.root).findSome? f = (Tree.forestRefs ts).find? test := by
  induction ts with
  | nil => rfl
  | cons t ts ih =>
      obtain ⟨ht, hts⟩ := List.forall_mem_cons.mp h
      rw [List.map_cons, List.findSome?_cons, ht, ih hts, Tree.forestRefs, List.find?_append]
      cases t.refs.find? test <;> rfl

/-- The search finds what comes first in pre-order, as long as there is a step left for every error that
does not stand above. -/
theorem Above.search_eq {path : List Ref} {t : Tree} (h : s.Above path t) (ht : s.Shows t)
    (test : Ref → Bool) {fuel : Nat} (hfuel : s.size ≤ path.length + fuel) :
    s.search test fuel t.root = t.refs.find? test := by
  induction ht generalizing path fuel with
  | @node r n ts hget hinner hts ih =>
      have hshows : s.Shows (.node r ts) := .node hget hinner hts
      have hlt := h.length_lt hshows
      obtain ⟨steps, rfl⟩ : ∃ steps, fuel = steps + 1 := ⟨fuel - 1, by omega⟩
      have hforest : (ts.map Tree.root).findSome? (s.search test steps) =
          (Tree.forestRefs ts).find? test := by
        apply findSome?_roots
        intro t ht
        apply ih t ht (h.inner hshows ht)
        rw [List.length_cons]
        omega
      rw [search, Tree.refs, List.find?_cons, Tree.root, inner_eq hget, hinner, hforest]
      cases test r <;> rfl

theorem Shows.first?_eq {t : Tree} (h : s.Shows t) (test : Ref → Bool) :
    s.first? test t.root = t.refs.find? test := by
  have habove : s.Above [] t := ⟨List.nodup_nil, fun r hr => absurd hr List.not_mem_nil⟩
  exact habove.search_eq h test (Nat.le_add_left _ _)

theorem Shows.asFault?_eq {t : Tree} (h : s.Shows t) :
    s.asFault? (some t.root) = t.refs.find? s.isFault :=
  h.first?_eq s.isFault

theorem Shows.holds_iff {t : Tree} (h : s.Shows t) {target : Ref} :
    s.holds (some t.root) (some target) = true ↔ target ∈ t.refs := by
  rw [holds, h.first?_eq, List.find?_isSome]
  simp

/-! ### Errors that are added -/

theorem get?_add {r : Ref} (h : r < s.size) (n : Node) : (s.add n).1.get? r = s.get? r :=
  List.getElem?_append_left h

theorem get?_add_self (s : Store) (n : Node) : (s.add n).1.get? s.size = some n :=
  List.getElem?_concat_length

theorem Shows.add {t : Tree} (h : s.Shows t) (n : Node) : (s.add n).1.Shows t := by
  induction h with
  | node hget hinner _ ih => exact .node ((get?_add (lt_size hget) n).trans hget) hinner ih

/-! ### Wrapping -/

theorem search_sound {test : Ref → Bool} {fuel : Nat} {r q : Ref}
    (h : s.search test fuel r = some q) : test q = true := by
  induction fuel generalizing r with
  | zero => cases h
  | succ fuel ih =>
      rw [search] at h
      split at h
      · rename_i hr
        rwa [← Option.some.inj h]
      · obtain ⟨p, -, hp⟩ := List.exists_of_findSome?_eq_some h
        exact ih hp

theorem isFault_of_asFault? {e : Option Ref} {q : Ref} (h : s.asFault? e = some q) :
    s.isFault q = true := by
  obtain ⟨r, -, hr⟩ := Option.bind_eq_some_iff.mp h
  exact search_sound hr

theorem lt_size_of_isFault {r : Ref} (h : s.isFault r = true) : r < s.size := by
  rw [isFault, fault?] at h
  cases hget : s.get? r with
  | none => simp [hget] at h
  | some n => exact lt_size hget

theorem asFault?_self {r : Ref} (h : s.isFault r = true) : s.asFault? (some r) = some r := by
  obtain ⟨steps, hsteps⟩ := Nat.exists_eq_add_of_lt (lt_size_of_isFault h)
  rw [asFault?, Option.bind_some, first?, hsteps, search, if_pos h]

theorem isFault_add_self (s : Store) (f : Fault Ref) : (s.add (.app f)).1.isFault s.size = true := by
  rw [isFault, fault?, get?_add_self]
  rfl

theorem wrap_of_some {r q : Ref} (h : s.asFault? (some r) = some q) :
    s.wrap (some r) = (s, some q) := by
  rw [wrap, h]

theorem wrap_of_none {r : Ref} (h : s.asFault? (some r) = none) :
    s.wrap (some r) = ((s.add (.app (.internal (some r)))).1, some s.size) := by
  rw [wrap, h]
  rfl

/-- What is wrapped once stays as it is when it is wrapped again. -/
theorem wrap_wrap (s : Store) (e : Option Ref) : (s.wrap e).1.wrap (s.wrap e).2 = s.wrap e := by
  cases e with
  | none => rfl
  | some r =>
      cases hfound : s.asFault? (some r) with
      | some q =>
          rw [wrap_of_some hfound]
          exact wrap_of_some (asFault?_self (isFault_of_asFault? hfound))
      | none =>
          rw [wrap_of_none hfound]
          exact wrap_of_some (asFault?_self (isFault_add_self s _))

theorem Shows.internal {t : Tree} (h : s.Shows t) :
    (s.add (.app (.internal (some t.root)))).1.Shows (.node s.size [t]) := by
  apply Shows.node (get?_add_self s _)
  · rfl
  · intro u hu
    rw [List.mem_singleton.mp hu]
    exact h.add _

theorem Shows.holds_internal {t : Tree} (h : s.Shows t) {target : Option Ref}
    (htarget : s.holds (some t.root) target = true) :
    (s.add (.app (.internal (some t.root)))).1.holds (some s.size) target = true := by
  cases target with
  | none => cases htarget
  | some q =>
      have hmem := h.holds_iff.mp htarget
      apply h.internal.holds_iff.mpr
      rw [Tree.refs, Tree.forestRefs]
      exact List.mem_cons_of_mem _ (List.mem_append_left _ hmem)

/-- The application error that is found in an error is the first one of its tree in pre-order, if there is
one there. Then it is in the error, and it is what wrapping yields; else wrapping yields a new error that
has the error as its cause, and all that is in the error is in the new one. -/
theorem Shows.wrap_spec {t : Tree} (h : s.Shows t) :
    (s.hasFault (some t.root) = true ↔ ∃ q ∈ t.refs, s.isFault q = true) ∧
      (∀ q, s.asFault? (some t.root) = some q ↔
        ∃ before after, t.refs = before ++ q :: after ∧ s.isFault q = true ∧
          ∀ p ∈ before, s.isFault p = false) ∧
      (∀ q, s.asFault? (some t.root) = some q →
        s.holds (some t.root) (some q) = true ∧ s.wrap (some t.root) = (s, some q)) ∧
      (s.asFault? (some t.root) = none → ∃ w f,
        (s.wrap (some t.root)).2 = some w ∧ s.get? w = none ∧
          (s.wrap (some t.root)).1.fault? w = some f ∧ f.code = internalCode ∧
          f.cause = some t.root ∧
          ∀ target, s.holds (some t.root) target = true →
            (s.wrap (some t.root)).1.holds (some w) target = true) ∧
      ∀ e, (s.wrap e).1.wrap (s.wrap e).2 = s.wrap e := by
  refine ⟨?_, ?_, ?_, ?_, s.wrap_wrap⟩
  · rw [hasFault, h.asFault?_eq, List.find?_isSome]
  · intro q
    rw [h.asFault?_eq, List.find?_eq_some_iff_append]
    simp only [Bool.not_eq_true']
    constructor
    · rintro ⟨hq, before, after, hrefs, hbefore⟩
      exact ⟨before, after, hrefs, hq, hbefore⟩
    · rintro ⟨before, after, hrefs, hq, hbefore⟩
      exact ⟨hq, before, after, hrefs, hbefore⟩
  · intro q hq
    refine ⟨h.holds_iff.mpr ?_, wrap_of_some hq⟩
    rw [h.asFault?_eq] at hq
    exact List.mem_of_find?_eq_some hq
  · intro hnone
    rw [wrap_of_none hnone]
    refine ⟨s.size, .internal (some t.root), rfl, ?_, ?_, rfl, rfl, fun target => h.holds_internal⟩
    · exact List.getElem?_eq_none (Nat.le_refl _)
    · rw [fault?, get?_add_self]

/-- An application error in a wrapper, next to an error that has none inside it. -/
def joinedStore : Store :=
  ⟨[.plain (utf8 "disk full"), .app (.internal (some 0)), .wrapped (utf8 "saving") (some 1),
    .plain (utf8 "late"), .wrapped (utf8 "closing") (some 3), .joined [4, 2, 1]]⟩

def joinedTree : Tree :=
  .node 5 [.node 4 [.node 3 []], .node 2 [.node 1 [.node 0 []]], .node 1 [.node 0 []]]

theorem shows_joinedTree : joinedStore.Shows joinedTree := by
  have hnone : ∀ t ∈ ([] : List Tree), joinedStore.Shows t := fun t ht => absurd ht List.not_mem_nil
  have hdisk : joinedStore.Shows (.node 0 []) := .node rfl rfl hnone
  have hfault : joinedStore.Shows (.node 1 [.node 0 []]) :=
    .node rfl rfl (List.forall_mem_singleton.mpr hdisk)
  have hsaving : joinedStore.Shows (.node 2 [.node 1 [.node 0 []]]) :=
    .node rfl rfl (List.forall_mem_singleton.mpr hfault)
  have hlate : joinedStore.Shows (.node 3 []) := .node rfl rfl hnone
  have hclosing : joinedStore.Shows (.node 4 [.node 3 []]) :=
    .node rfl rfl (List.forall_mem_singleton.mpr hlate)
  apply Shows.node rfl rfl
  simp only [List.forall_mem_cons]
  exact ⟨hclosing, hsaving, hfault, hnone⟩

theorem Shows.wrap_spec_joined :
    joinedStore.Shows joinedTree ∧ joinedTree.refs = [5, 4, 3, 2, 1, 0, 1, 0] ∧
      joinedStore.asFault? (some 5) = some 1 ∧ joinedStore.holds (some 5) (some 1) = true ∧
      joinedStore.wrap (some 5) = (joinedStore, some 1) := by
  obtain ⟨-, hfirst, hfound, -⟩ := shows_joinedTree.wrap_spec
  have hfault : joinedStore.asFault? (some 5) = some 1 :=
    (hfirst 1).mpr ⟨[5, 4, 3, 2], [0, 1, 0], rfl, rfl, by decide⟩
  exact ⟨shows_joinedTree, rfl, hfault, hfound 1 hfault⟩

end Store

end ServiceKit.Fault
