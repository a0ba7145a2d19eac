import Mathlib
import ServiceKit.Config.KeyVariants
import ServiceKit.Config.Tree
import ServiceKit.Proofs.Text.Case

/-!
The keys that the name of a variable may stand for. All of them are in lower case, and read with
underscores for points each of them is the name again, so the path of one is never part of the way to
another.
-/

namespace ServiceKit.Config

open Text

theorem isDivider_point : isDivider 0x2E = true := by decide

theorem isDivider_underscore : isDivider 0x5F = true := by decide

theorem mem_cuts {α : Type} {l xs ys : List α} :
    (xs, ys) ∈ cuts l ↔ xs ++ ys = l ∧ xs ≠ [] ∧ ys ≠ [] := by
  induction l generalizing xs with
  | nil => simp +contextual [cuts]
  | cons a l ih =>
      cases l with
      | nil =>
          simp only [cuts, List.not_mem_nil, false_iff, not_and]
          intro h hx hy
          obtain ⟨x, xs, rfl⟩ := List.exists_cons_of_ne_nil hx
          obtain ⟨y, ys, rfl⟩ := List.exists_cons_of_ne_nil hy
          simp at h
      | cons b l =>
          rw [cuts]
          · simp only [List.mem_cons, List.mem_map, Prod.mk.injEq, Prod.exists]
            constructor
            · rintro (⟨rfl, rfl⟩ | ⟨x, y, h, rfl, rfl⟩)
              · simp
              · obtain ⟨he, -, hy⟩ := ih.mp h
                exact ⟨by rw [List.cons_append, he], by simp, hy⟩
            · rintro ⟨h, hx, hy⟩
              obtain ⟨x, xs, rfl⟩ := List.exists_cons_of_ne_nil hx
              obtain ⟨rfl, htail⟩ := List.cons.inj h
              by_cases hxs : xs = []
              · subst hxs
                exact .inl ⟨rfl, htail⟩
              · exact .inr ⟨xs, ys, ih.mpr ⟨htail, hxs, hy⟩, rfl, rfl⟩
          · simp

theorem mem_keyVariants {name w : Text} : w ∈ keyVariants name ↔
    w = name.lower ∨ w = name.lower.swap 0x5F 0x2E ∨
      ∃ xs ys, xs ++ ys = split 0x5F name.lower ∧ xs ≠ [] ∧ ys ≠ [] ∧
        w = join [0x5F] xs ++ 0x2E :: join [0x5F] ys := by
  have hcuts : (∃ c ∈ cuts (split 0x5F name.lower), dividedKey c = w) ↔
      ∃ xs ys, xs ++ ys = split 0x5F name.lower ∧ xs ≠ [] ∧ ys ≠ [] ∧
        w = join [0x5F] xs ++ 0x2E :: join [0x5F] ys := by
    simp only [Prod.exists, mem_cuts, dividedKey, and_assoc, eq_comm]
  rw [← hcuts]
  unfold keyVariants
  simp only
  split
  · rename_i h
    exact absurd h (split_ne_nil _ _)
  · rename_i v h
    have hswap : name.lower.swap 0x5F 0x2E = name.lower := by
      rw [swap_eq_join, h, ← join_split 0x5F name.lower, h]
      rfl
    simp [h, cuts, hswap]
  · simp [removeDuplicates, eq_comm]

theorem lower_of_mem_keyVariants {name w : Text} (h : w ∈ keyVariants name) : w.lower = w := by
  have hparts : ∀ ws : List Text, (∀ v ∈ ws, v ∈ split 0x5F name.lower) → ws.map lower = ws :=
    fun ws hws => (List.map_congr_left fun v hv =>
      lower_of_mem_split isDivider_underscore (lower_lower name) (hws v hv)).trans (List.map_id ws)
  rcases mem_keyVariants.mp h with rfl | rfl | ⟨xs, ys, he, -, -, rfl⟩
  · exact lower_lower name
  · rw [swap_eq_join, lower_join isDivider_point, hparts _ fun _ hv => hv]
  · rw [lower_append_divider isDivider_point, lower_join isDivider_underscore,
      lower_join isDivider_underscore, hparts xs fun v hv => he ▸ List.mem_append_left ys hv,
      hparts ys fun v hv => he ▸ List.mem_append_right xs hv]

theorem swap_of_not_mem {b c : UInt8} {s : Text} (h : b ∉ s) : swap b c s = s := by
  rw [swap_eq_join, split_eq_singleton h]
  rfl

theorem swap_append (b c : UInt8) (s t : Text) : swap b c (s ++ t) = swap b c s ++ swap b c t :=
  List.map_append

theorem swap_swap {b c : UInt8} {s : Text} (h : c ∉ s) : swap c b (swap b c s) = s := by
  rw [swap, swap, List.map_map]
  refine (List.map_congr_left fun a ha => ?_).trans (List.map_id s)
  have hac : a ≠ c := fun hac => h (hac ▸ ha)
  by_cases hab : a = b <;> simp [hab, hac]

theorem not_mem_lower {name : Text} (h : 0x2E ∉ name) : 0x2E ∉ name.lower :=
  fun hl => h (mem_of_mem_lower isDivider_point hl)

/-- A key of a name without points, read with underscores for points, is the name. -/
theorem swap_of_mem_keyVariants {name w : Text} (hn : 0x2E ∉ name) (h : w ∈ keyVariants name) :
    w.swap 0x2E 0x5F = name.lower := by
  have hl := not_mem_lower hn
  rcases mem_keyVariants.mp h with rfl | rfl | ⟨xs, ys, he, hx, hy, rfl⟩
  · exact swap_of_not_mem hl
  · exact swap_swap hl
  · have hj := join_append 0x5F hx hy
    rw [he, join_split] at hj
    rw [hj, List.mem_append, List.mem_cons, not_or, not_or] at hl
    rw [hj, swap_append, swap_of_not_mem hl.1]
    change _ ++ 0x5F :: swap 0x2E 0x5F (join [0x5F] ys) = _
    rw [swap_of_not_mem hl.2.2]

theorem join_pathOf {name w : Text} (hn : 0x2E ∉ name) (h : w ∈ keyVariants name) :
    join [0x5F] (pathOf w) = name.lower := by
  rw [pathOf, ← swap_eq_join, swap_of_mem_keyVariants hn h]

theorem mem_keyVariants_of_divided {name a b : Text} (h : name.lower = a ++ 0x5F :: b) :
    a ++ 0x2E :: b ∈ keyVariants name := by
  refine mem_keyVariants.mpr (.inr (.inr ⟨split 0x5F a, split 0x5F b, ?_, split_ne_nil _ _,
    split_ne_nil _ _, by simp⟩))
  rw [h, split_append_sep]

theorem pathOf_ne_nil (w : Text) : pathOf w ≠ [] := split_ne_nil 0x2E w

/-- A key on the way to another one belongs to the same name, or to one that leads the other's name
up to an underscore. -/
theorem names_of_pathOf_prefix {n n' w w' : Text} (hn : 0x2E ∉ n) (hn' : 0x2E ∉ n')
    (h : w ∈ keyVariants n) (h' : w' ∈ keyVariants n') (hp : pathOf w <+: pathOf w') :
    (w = w' ∧ n.lower = n'.lower) ∨ n.lower ++ [0x5F] <+: n'.lower := by
  -- joined by underscores, the parts of a key are its name again
  obtain ⟨r, hr⟩ := hp
  have hj := join_pathOf hn' h'
  rw [← hr] at hj
  by_cases hr0 : r = []
  · rw [hr0, List.append_nil] at hr hj
    exact .inl ⟨split_injective 0x2E hr, by rw [← hj, join_pathOf hn h]⟩
  · rw [join_append 0x5F (pathOf_ne_nil w) hr0, join_pathOf hn h] at hj
    exact .inr ⟨join [0x5F] r, by rw [← hj]; simp⟩

/-- Neither of two paths is part of the way to the other. -/
def Apart (p q : List Text) : Prop := ¬p <+: q ∧ ¬q <+: p

theorem apart_of_ne {a b : Text} (h : a ≠ b) (p q : List Text) : Apart (a :: p) (b :: q) :=
  ⟨fun hp => h (List.cons_prefix_cons.mp hp).1, fun hp => h (List.cons_prefix_cons.mp hp).1.symm⟩

theorem Apart.cons {p q : List Text} (h : Apart p q) (a : Text) : Apart (a :: p) (a :: q) :=
  ⟨fun hp => h.1 (List.cons_prefix_cons.mp hp).2, fun hp => h.2 (List.cons_prefix_cons.mp hp).2⟩

theorem Apart.tail {p q : List Text} {a : Text} (h : Apart (a :: p) (a :: q)) : Apart p q :=
  ⟨fun hp => h.1 (List.cons_prefix_cons.mpr ⟨rfl, hp⟩), fun hq => h.2 (List.cons_prefix_cons.mpr ⟨rfl, hq⟩)⟩

theorem Apart.ne_nil {p q : List Text} (h : Apart p q) : p ≠ [] ∧ q ≠ [] :=
  ⟨fun he => h.1 (he ▸ List.nil_prefix), fun he => h.2 (he ▸ List.nil_prefix)⟩

theorem Apart.append {p q : List Text} (h : Apart p q) (r : List Text) : Apart (p ++ r) q := by
  constructor
  · intro hpq
    exact h.1 ((List.prefix_append p r).trans hpq)
  · intro hqp
    rcases List.prefix_or_prefix_of_prefix hqp (List.prefix_append p r) with h' | h'
    · exact h.2 h'
    · exact h.1 h'

/-- Different keys of one name stand apart. -/
theorem apart_of_mem_keyVariants {n w w' : Text} (hn : 0x2E ∉ n) (h : w ∈ keyVariants n)
    (h' : w' ∈ keyVariants n) (hne : w ≠ w') : Apart (pathOf w) (pathOf w') := by
  have hself : ¬n.lower ++ [0x5F] <+: n.lower := fun hp => by
    have := hp.length_le
    simp at this
  constructor
  · intro hp
    rcases names_of_pathOf_prefix hn hn h h' hp with ⟨he, -⟩ | hl
    · exact hne he
    · exact hself hl
  · intro hp
    rcases names_of_pathOf_prefix hn hn h' h hp with ⟨he, -⟩ | hl
    · exact hne he.symm
    · exact hself hl

/-- Keys of two names stand apart if neither name leads the other up to an underscore. -/
theorem apart_of_names {n n' w w' : Text} (hn : 0x2E ∉ n) (hn' : 0x2E ∉ n')
    (hne : n.lower ≠ n'.lower) (h1 : ¬n.lower ++ [0x5F] <+: n'.lower)
    (h2 : ¬n'.lower ++ [0x5F] <+: n.lower) (h : w ∈ keyVariants n) (h' : w' ∈ keyVariants n') :
    Apart (pathOf w) (pathOf w') := by
  constructor
  · intro hp
    rcases names_of_pathOf_prefix hn hn' h h' hp with ⟨-, he⟩ | hl
    · exact hne he
    · exact h1 hl
  · intro hp
    rcases names_of_pathOf_prefix hn' hn h' h hp with ⟨-, he⟩ | hl
    · exact hne he.symm
    · exact h2 hl

end ServiceKit.Config
