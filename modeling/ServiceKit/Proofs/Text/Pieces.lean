import Mathlib
import ServiceKit.Text.Basic

/-!
Texts cut at one byte and put together again. The pieces of a text determine it, and one text leads
another up to a dividing byte exactly when its pieces lead the other's pieces.
-/

namespace ServiceKit.Text

variable {b : UInt8} {s t : Text}

theorem dropLead?_eq_some {lead s rest : Text} : dropLead? lead s = some rest ↔ s = lead ++ rest := by
  fun_induction dropLead? lead s with
  | case1 s => simp [eq_comm]
  | case2 a lead => simp
  | case3 lead a s ih => simp [ih]
  | case4 a lead b s hne => simp [Ne.symm hne]

theorem split_ne_nil (b : UInt8) (s : Text) : split b s ≠ [] := by
  fun_induction split b s <;> simp_all

theorem split_cons_self (b : UInt8) (s : Text) : split b (b :: s) = [] :: split b s := if_pos rfl

theorem split_cons_of_ne {a : UInt8} (h : a ≠ b) (s : Text) :
    ∃ w ws, split b s = w :: ws ∧ split b (a :: s) = (a :: w) :: ws := by
  obtain ⟨w, ws, hs⟩ := List.exists_cons_of_ne_nil (split_ne_nil b s)
  exact ⟨w, ws, hs, by simp [split, h, hs]⟩

theorem split_append_sep (b : UInt8) (s t : Text) :
    split b (s ++ b :: t) = split b s ++ split b t := by
  induction s with
  | nil => exact split_cons_self b t
  | cons a s ih =>
      by_cases h : a = b
      · rw [h, List.cons_append, split_cons_self, split_cons_self, ih]
        rfl
      · obtain ⟨w, ws, hs, hc⟩ := split_cons_of_ne h s
        obtain ⟨v, vs, hv, hcons⟩ := split_cons_of_ne h (s ++ b :: t)
        rw [ih, hs] at hv
        obtain ⟨rfl, rfl⟩ := List.cons.inj hv
        rw [List.cons_append, hcons, hc]
        rfl

theorem split_eq_singleton (h : b ∉ s) : split b s = [s] := by
  induction s with
  | nil => rfl
  | cons a s ih =>
      rw [List.mem_cons, not_or] at h
      obtain ⟨w, ws, hs, hc⟩ := split_cons_of_ne (Ne.symm h.1) s
      rw [ih h.2] at hs
      obtain ⟨rfl, rfl⟩ := List.cons.inj hs
      exact hc

theorem not_mem_of_mem_split {w : Text} (h : w ∈ split b s) : b ∉ w := by
  induction s generalizing w with
  | nil =>
      obtain rfl := List.mem_singleton.mp h
      exact List.not_mem_nil
  | cons a s ih =>
      by_cases ha : a = b
      · rw [ha, split_cons_self, List.mem_cons] at h
        rcases h with rfl | h
        · exact List.not_mem_nil
        · exact ih h
      · obtain ⟨v, vs, hs, hc⟩ := split_cons_of_ne ha s
        rw [hc, List.mem_cons] at h
        rcases h with rfl | h
        · rw [List.mem_cons, not_or]
          exact ⟨Ne.symm ha, ih (hs ▸ List.mem_cons_self)⟩
        · exact ih (hs ▸ List.mem_cons_of_mem v h)

theorem mem_of_mem_split {w : Text} {a : UInt8} (h : w ∈ split b s) (ha : a ∈ w) : a ∈ s := by
  induction s generalizing w with
  | nil =>
      obtain rfl := List.mem_singleton.mp h
      exact ha
  | cons c s ih =>
      by_cases hc : c = b
      · rw [hc, split_cons_self, List.mem_cons] at h
        rcases h with rfl | h
        · exact absurd ha List.not_mem_nil
        · exact List.mem_cons_of_mem c (ih h ha)
      · obtain ⟨v, vs, hs, hcons⟩ := split_cons_of_ne hc s
        rw [hcons, List.mem_cons] at h
        rcases h with rfl | h
        · rcases List.mem_cons.mp ha with rfl | ha
          · exact List.mem_cons_self
          · exact List.mem_cons_of_mem c (ih (hs ▸ List.mem_cons_self) ha)
        · exact List.mem_cons_of_mem c (ih (hs ▸ List.mem_cons_of_mem v h) ha)

theorem join_cons_cons (sep w v : Text) (ws : List Text) :
    join sep (w :: v :: ws) = w ++ sep ++ join sep (v :: ws) := rfl

theorem join_cons (sep w : Text) {ws : List Text} (h : ws ≠ []) :
    join sep (w :: ws) = w ++ sep ++ join sep ws := by
  cases ws with
  | nil => exact absurd rfl h
  | cons v vs => rfl

theorem not_mem_join {sep : Text} (hsep : b ∉ sep) {ws : List Text} (h : ∀ w ∈ ws, b ∉ w) :
    b ∉ join sep ws := by
  induction ws with
  | nil => exact List.not_mem_nil
  | cons w ws ih =>
      obtain ⟨hw, hws⟩ := List.forall_mem_cons.mp h
      cases ws with
      | nil => exact hw
      | cons v vs =>
          rw [join_cons_cons, List.mem_append, List.mem_append, not_or, not_or]
          exact ⟨⟨hw, hsep⟩, ih hws⟩

theorem join_append (b : UInt8) {xs ys : List Text} (hx : xs ≠ []) (hy : ys ≠ []) :
    join [b] (xs ++ ys) = join [b] xs ++ b :: join [b] ys := by
  induction xs with
  | nil => exact absurd rfl hx
  | cons x xs ih =>
      cases xs with
      | nil => simp [join_cons _ _ hy, join]
      | cons x' xs =>
          rw [List.cons_append, List.cons_append, join_cons_cons, ← List.cons_append,
            ih (by simp), join_cons_cons]
          simp

@[simp] theorem join_split (b : UInt8) (s : Text) : join [b] (split b s) = s := by
  induction s with
  | nil => rfl
  | cons a s ih =>
      by_cases h : a = b
      · rw [h, split_cons_self, join_cons _ _ (split_ne_nil b s), ih]
        rfl
      · obtain ⟨w, ws, hs, hc⟩ := split_cons_of_ne h s
        rw [hs] at ih
        rw [hc, ← ih]
        cases ws with
        | nil => rfl
        | cons v vs => rfl

theorem split_join {ws : List Text} (hne : ws ≠ []) (h : ∀ w ∈ ws, b ∉ w) :
    split b (join [b] ws) = ws := by
  induction ws with
  | nil => exact absurd rfl hne
  | cons w ws ih =>
      have hw := h w List.mem_cons_self
      cases ws with
      | nil => exact split_eq_singleton hw
      | cons v ws =>
          rw [join_cons_cons, List.append_assoc, List.singleton_append, split_append_sep,
            split_eq_singleton hw, ih (by simp) fun w hw => h w (List.mem_cons_of_mem _ hw)]
          rfl

theorem split_injective (b : UInt8) : Function.Injective (split b) := fun s t h => by
  rw [← join_split b s, h, join_split]

/-- One text leads another up to a dividing byte when its pieces lead the other's pieces. -/
theorem split_prefix_iff : split b s <+: split b t ↔ s = t ∨ s ++ [b] <+: t := by
  constructor
  · rintro ⟨ws, h⟩
    by_cases hws : ws = []
    · left
      rw [hws, List.append_nil] at h
      exact split_injective b h
    · right
      have ht := congrArg (join [b]) h
      rw [join_append b (split_ne_nil b s) hws, join_split, join_split] at ht
      exact ⟨join [b] ws, by rw [← ht]; simp⟩
  · rintro (rfl | ⟨r, rfl⟩)
    · exact List.prefix_rfl
    · rw [List.append_assoc, List.singleton_append, split_append_sep]
      exact List.prefix_append _ _

/-- Changing one byte into another is cutting at the one and joining by the other. -/
theorem swap_eq_join (b c : UInt8) (s : Text) : swap b c s = join [c] (split b s) := by
  induction s with
  | nil => rfl
  | cons a s ih =>
      by_cases h : a = b
      · rw [h, split_cons_self, join_cons _ _ (split_ne_nil b s), ← ih, swap, List.map_cons, if_pos rfl]
        rfl
      · obtain ⟨w, ws, hs, hc⟩ := split_cons_of_ne h s
        rw [hs] at ih
        rw [hc, swap, List.map_cons, if_neg h]
        change a :: swap b c s = _
        rw [ih]
        cases ws with
        | nil => rfl
        | cons v vs => rfl

/-! ### One cut -/

theorem cut?_append {b : UInt8} {s : Text} (h : b ∉ s) (t : Text) :
    cut? b (s ++ b :: t) = some (s, t) := by
  induction s with
  | nil => rw [List.nil_append, cut?, if_pos rfl]
  | cons a s ih =>
      obtain ⟨ha, hs⟩ := List.ne_and_not_mem_of_not_mem_cons h
      rw [List.cons_append, cut?, if_neg ha.symm, ih hs]
      rfl

theorem cut?_of_not_mem {b : UInt8} {s : Text} (h : b ∉ s) : cut? b s = none := by
  induction s with
  | nil => rfl
  | cons a s ih =>
      obtain ⟨ha, hs⟩ := List.ne_and_not_mem_of_not_mem_cons h
      rw [cut?, if_neg ha.symm, ih hs]
      rfl

end ServiceKit.Text
