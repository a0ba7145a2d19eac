import Mathlib
import ServiceKit.Text.Keyed

/-!
Laws of maps that are lists of entries: what is found after an entry is set, and that the entries of a
map built by `put` stand in the order of their keys.
-/

namespace ServiceKit

namespace Text

theorem le_refl (s : Text) : le s s = true := by
  induction s with
  | nil => rfl
  | cons a s ih => simpa [le] using ih

theorem le_total (s t : Text) : le s t = true ∨ le t s = true := by
  fun_induction le s t with
  | case1 t => exact .inl rfl
  | case2 a s => exact .inr rfl
  | case3 a s b t h => exact .inl rfl
  | case4 a s b t h h' => exact .inr (by simp [le, h'])
  | case5 a s b t h h' ih => simpa [le, h, h'] using ih

theorem le_trans {s t u : Text} (hst : le s t = true) (htu : le t u = true) : le s u = true := by
  induction s generalizing t u with
  | nil => rfl
  | cons a s ih =>
      cases t with
      | nil => cases hst
      | cons b t =>
          cases u with
          | nil => cases htu
          | cons c u =>
              rw [le] at hst htu ⊢
              grind

theorem le_antisymm {s t : Text} (hst : le s t = true) (hts : le t s = true) : s = t := by
  induction s generalizing t with
  | nil =>
      cases t with
      | nil => rfl
      | cons b t => cases hts
  | cons a s ih =>
      cases t with
      | nil => cases hst
      | cons b t =>
          rw [le] at hst hts
          grind

theorem lt_irrefl (s : Text) : lt s s = false := by
  rw [lt, le_refl]
  rfl

theorem ne_nil_of_lt {s t : Text} (h : lt s t = true) : t ≠ [] := by
  rintro rfl
  cases s <;> simp [lt, le] at h

theorem lt_of_not_lt {s t : Text} (hne : s ≠ t) (h : ¬lt s t = true) : lt t s = true := by
  simp only [lt, Bool.not_eq_true', Bool.not_eq_false] at h ⊢
  rw [Bool.eq_false_iff]
  exact fun h' => hne (le_antisymm h' h)

theorem lt_trans {s t u : Text} (hst : lt s t = true) (htu : lt t u = true) : lt s u = true := by
  simp only [lt, Bool.not_eq_true', Bool.eq_false_iff] at hst htu ⊢
  intro hus
  rcases le_total t u with h | h
  · exact hst (le_trans h hus)
  · exact htu h

/-- The order of texts is the lexicographic order of their bytes. -/
theorem lt_iff {s t : Text} : lt s t = true ↔ s < t := by
  rw [lt, Bool.not_eq_true']
  fun_induction le t s with
  | case1 s => simp
  | case2 b t => simp
  | case3 b t a s hlt =>
      have hasymm : ¬a < b := UInt8.lt_asymm hlt
      have hne : a ≠ b := (UInt8.ne_of_lt hlt).symm
      simp [List.cons_lt_cons_iff, hasymm, hne]
  | case4 b t a s h hlt => simp [List.cons_lt_cons_iff, hlt]
  | case5 b t a s h h' ih =>
      obtain rfl : a = b := UInt8.le_antisymm (UInt8.not_lt.mp h) (UInt8.not_lt.mp h')
      simp [ih]

end Text

namespace Keyed

variable {α : Type}

@[simp] theorem find?_nil (k : Text) : find? k ([] : Keyed α) = none := rfl

@[simp] theorem find?_cons_self (e : Text × α) (m : Keyed α) : find? e.1 (e :: m) = some e.2 :=
  if_pos rfl

theorem find?_cons_of_ne {k : Text} {e : Text × α} (h : k ≠ e.1) (m : Keyed α) :
    find? k (e :: m) = find? k m :=
  if_neg h

theorem find?_put (k k' : Text) (v : α) (m : Keyed α) :
    find? k (put k' v m) = if k = k' then some v else find? k m := by
  induction m with
  | nil => rfl
  | cons e m ih =>
      obtain ⟨l, w⟩ := e
      rw [put]
      split
      · rename_i hl
        subst hl
        by_cases hk : k = k' <;> simp [find?, hk]
      · split
        · rfl
        · rw [find?, find?, ih]
          by_cases hk : k = l
          · subst hk
            simp [Ne.symm ‹¬k' = k›]
          · simp [hk]

@[simp] theorem find?_put_self (k : Text) (v : α) (m : Keyed α) : find? k (put k v m) = some v := by
  rw [find?_put, if_pos rfl]

theorem find?_put_of_ne {k k' : Text} (h : k ≠ k') (v : α) (m : Keyed α) :
    find? k (put k' v m) = find? k m := by
  rw [find?_put, if_neg h]

theorem mem_put {k : Text} {v : α} {m : Keyed α} {e : Text × α} (h : e ∈ put k v m) :
    e = (k, v) ∨ e ∈ m := by
  induction m with
  | nil => exact .inl (List.mem_singleton.mp h)
  | cons f m ih =>
      rw [put] at h
      split at h
      · rcases List.mem_cons.mp h with h | h
        · exact .inl h
        · exact .inr (List.mem_cons_of_mem f h)
      · split at h
        · rcases List.mem_cons.mp h with h | h
          · exact .inl h
          · exact .inr h
        · rcases List.mem_cons.mp h with h | h
          · exact .inr (h ▸ List.mem_cons_self)
          · exact (ih h).imp id (List.mem_cons_of_mem f)

theorem mem_of_find? {k : Text} {m : Keyed α} {v : α} (h : find? k m = some v) : (k, v) ∈ m := by
  induction m with
  | nil => cases h
  | cons e m ih =>
      rw [find?] at h
      split at h
      · rename_i hk
        cases h
        exact hk ▸ List.mem_cons_self
      · exact List.mem_cons_of_mem e (ih h)

theorem find?_eq_none {k : Text} {m : Keyed α} : find? k m = none ↔ ∀ e ∈ m, e.1 ≠ k := by
  induction m with
  | nil => simp
  | cons e m ih =>
      rw [find?, List.forall_mem_cons]
      split
      · rename_i hk
        simp [hk]
      · rename_i hk
        rw [ih]
        exact ⟨fun h => ⟨Ne.symm hk, h⟩, fun h => h.2⟩

/-! ### Order -/

/-- Every key comes before the keys after it. -/
def Sorted (m : Keyed α) : Prop := m.Pairwise fun e f => Text.lt e.1 f.1 = true

theorem Sorted.put {m : Keyed α} (h : Sorted m) (k : Text) (v : α) : Sorted (put k v m) := by
  induction m with
  | nil => exact List.pairwise_singleton _ _
  | cons e m ih =>
      obtain ⟨hhead, htail⟩ := List.pairwise_cons.mp h
      rw [Keyed.put]
      split
      · rename_i hk
        exact List.pairwise_cons.mpr ⟨fun f hf => hk ▸ hhead f hf, htail⟩
      · rename_i hne
        split
        · rename_i hlt
          refine List.pairwise_cons.mpr ⟨fun f hf => ?_, h⟩
          rcases List.mem_cons.mp hf with rfl | hf
          · exact hlt
          · exact Text.lt_trans hlt (hhead f hf)
        · rename_i hlt
          refine List.pairwise_cons.mpr ⟨fun f hf => ?_, ih htail⟩
          rcases mem_put hf with rfl | hf
          · exact Text.lt_of_not_lt hne hlt
          · exact hhead f hf

theorem find?_filter {p : Text → Bool} {k : Text} (hp : p k = true) (m : Keyed α) :
    find? k (m.filter fun e => p e.1) = find? k m := by
  induction m with
  | nil => rfl
  | cons e m ih =>
      rw [List.filter_cons]
      by_cases hk : k = e.1
      · have he : p e.1 = true := hk ▸ hp
        rw [if_pos he, find?, find?, if_pos hk, if_pos hk]
      · split
        · rw [find?, find?, if_neg hk, if_neg hk, ih]
        · rw [ih, find?, if_neg hk]

theorem find?_filter_of_not {p : Text → Bool} {k : Text} (hp : p k = false) (m : Keyed α) :
    find? k (m.filter fun e => p e.1) = none := by
  refine find?_eq_none.mpr fun e he hk => ?_
  have htrue := List.of_mem_filter he
  rw [hk, hp] at htrue
  cases htrue

theorem Sorted.find?_tail {e : Text × α} {m : Keyed α} (h : Sorted (e :: m)) : find? e.1 m = none := by
  refine find?_eq_none.mpr fun f hf hk => ?_
  have hlt := (List.pairwise_cons.mp h).1 f hf
  rw [hk, Text.lt_irrefl] at hlt
  cases hlt

theorem Sorted.find?_of_mem {e : Text × α} {m : Keyed α} (h : Sorted m) (he : e ∈ m) :
    find? e.1 m = some e.2 := by
  induction m with
  | nil => cases he
  | cons f m ih =>
      obtain ⟨hhead, htail⟩ := List.pairwise_cons.mp h
      rcases List.mem_cons.mp he with rfl | he
      · exact find?_cons_self e m
      · rw [find?_cons_of_ne, ih htail he]
        intro hk
        have hlt := hhead e he
        rw [hk, Text.lt_irrefl] at hlt
        cases hlt

theorem Sorted.ext {m m' : Keyed α} (h : Sorted m) (h' : Sorted m')
    (hfind : ∀ k, find? k m = find? k m') : m = m' := by
  induction m generalizing m' with
  | nil =>
      cases m' with
      | nil => rfl
      | cons e m' =>
          have he := hfind e.1
          rw [find?_cons_self] at he
          cases he
  | cons e m ih =>
      cases m' with
      | nil =>
          have he := hfind e.1
          rw [find?_cons_self] at he
          cases he
      | cons e' m' =>
          have hkey : e.1 = e'.1 := by
            by_contra hne
            have h1 := hfind e.1
            rw [find?_cons_self, find?_cons_of_ne hne] at h1
            have h2 := hfind e'.1
            rw [find?_cons_self, find?_cons_of_ne (Ne.symm hne)] at h2
            have hlt := (List.pairwise_cons.mp h').1 _ (mem_of_find? h1.symm)
            have hlt' := (List.pairwise_cons.mp h).1 _ (mem_of_find? h2)
            have hboth := Text.lt_trans hlt hlt'
            rw [Text.lt_irrefl] at hboth
            cases hboth
          have hvalue := hfind e.1
          rw [find?_cons_self, hkey, find?_cons_self] at hvalue
          have hrest : m = m' := by
            refine ih (List.pairwise_cons.mp h).2 (List.pairwise_cons.mp h').2 fun k => ?_
            by_cases hk : k = e.1
            · rw [hk, h.find?_tail, hkey, h'.find?_tail]
            · have hk' := hfind k
              rwa [find?_cons_of_ne hk, find?_cons_of_ne (hkey ▸ hk)] at hk'
          rw [hrest, Prod.ext hkey (Option.some.inj hvalue)]

@[simp] theorem put_put_self (k : Text) (v w : α) (m : Keyed α) : put k v (put k w m) = put k v m := by
  induction m with
  | nil => simp [put]
  | cons e m ih =>
      by_cases hk : k = e.1
      · simp [put, hk]
      · by_cases hlt : Text.lt k e.1 = true
        · simp [put, hk, hlt]
        · simp [put, hk, hlt, ih]

theorem Sorted.put_of_find? {m : Keyed α} (h : Sorted m) {k : Text} {v : α} (hv : find? k m = some v) :
    Keyed.put k v m = m := by
  refine (h.put k v).ext h fun l => ?_
  rw [find?_put]
  split
  · rename_i hl
    rw [hl, hv]
  · rfl

theorem Sorted.put_comm {m : Keyed α} (h : Sorted m) {k l : Text} (hne : k ≠ l) (v w : α) :
    Keyed.put k v (Keyed.put l w m) = Keyed.put l w (Keyed.put k v m) := by
  refine ((h.put l w).put k v).ext ((h.put k v).put l w) fun x => ?_
  simp only [find?_put]
  by_cases hk : x = k
  · rw [if_pos hk, if_neg (hk ▸ hne), if_pos hk]
  · rw [if_neg hk, if_neg hk]

/-- Maps in order that have the same entries for some keys are equal as far as these keys go. -/
theorem Sorted.filter_ext {p : Text → Bool} {m m' : Keyed α} (h : Sorted m) (h' : Sorted m')
    (hfind : ∀ k, p k = true → find? k m = find? k m') :
    (m.filter fun e => p e.1) = m'.filter fun e => p e.1 := by
  refine Sorted.ext (List.Pairwise.filter _ h) (List.Pairwise.filter _ h') fun k => ?_
  cases hp : p k with
  | true => rw [find?_filter hp, find?_filter hp, hfind k hp]
  | false => rw [find?_filter_of_not hp, find?_filter_of_not hp]

/-! ### Maps of a list of entries -/

theorem find?_map {β : Type} (f : α → β) (k : Text) (m : Keyed α) :
    find? k (m.map fun e => (e.1, f e.2)) = (find? k m).map f := by
  induction m with
  | nil => rfl
  | cons e m ih =>
      rw [List.map_cons, find?, find?]
      split
      · rfl
      · exact ih

theorem find?_append (k : Text) (m n : Keyed α) : find? k (m ++ n) = (find? k m).or (find? k n) := by
  induction m with
  | nil => rfl
  | cons e m ih =>
      rw [List.cons_append, find?, find?]
      split
      · rfl
      · exact ih

/-- Of the entries with one key the last one counts. -/
theorem find?_putAll_eq (k : Text) (m : Keyed α) (entries : List (Text × α)) :
    find? k (putAll m entries) = (find? k entries.reverse).or (find? k m) := by
  induction entries generalizing m with
  | nil => rfl
  | cons e entries ih =>
      rw [show putAll m (e :: entries) = putAll (put e.1 e.2 m) entries from rfl, ih, find?_put,
        List.reverse_cons, find?_append, Option.or_assoc]
      by_cases hk : k = e.1
      · rw [if_pos hk, hk, find?_cons_self, Option.some_or]
      · rw [if_neg hk, find?_cons_of_ne hk, find?_nil, Option.none_or]

theorem find?_ofList (k : Text) (entries : List (Text × α)) :
    find? k (ofList entries) = find? k entries.reverse := by
  rw [ofList, find?_putAll_eq, find?_nil, Option.or_none]

theorem find?_putAll {k : Text} {entries : List (Text × α)} (m : Keyed α)
    (h : ∀ e ∈ entries, e.1 ≠ k) : find? k (putAll m entries) = find? k m := by
  have hnone : find? k entries.reverse = none :=
    find?_eq_none.mpr fun e he => h e (List.mem_reverse.mp he)
  rw [find?_putAll_eq, hnone, Option.none_or]

/-- If no key comes twice, every entry is found. -/
theorem find?_putAll_of_mem {k : Text} {v : α} {entries : List (Text × α)} (m : Keyed α)
    (hd : (entries.map Prod.fst).Nodup) (h : (k, v) ∈ entries) :
    find? k (putAll m entries) = some v := by
  induction entries generalizing m with
  | nil => cases h
  | cons e entries ih =>
      rw [List.map_cons, List.nodup_cons] at hd
      rw [show putAll m (e :: entries) = putAll (put e.1 e.2 m) entries from rfl]
      rcases List.mem_cons.mp h with rfl | h
      · have hne : ∀ f ∈ entries, f.1 ≠ k := fun f hf he => hd.1 (List.mem_map.mpr ⟨f, hf, he⟩)
        rw [find?_putAll _ hne, find?_put_self]
      · exact ih _ hd.2 h

theorem mem_putAll {e : Text × α} {entries : List (Text × α)} {m : Keyed α} (h : e ∈ putAll m entries) :
    e ∈ m ∨ e ∈ entries := by
  induction entries generalizing m with
  | nil => exact .inl h
  | cons f entries ih =>
      rcases ih h with h | h
      · rcases mem_put h with rfl | h
        · exact .inr List.mem_cons_self
        · exact .inl h
      · exact .inr (List.mem_cons_of_mem f h)

theorem Sorted.putAll {m : Keyed α} (h : Sorted m) (entries : List (Text × α)) :
    Sorted (putAll m entries) := by
  induction entries generalizing m with
  | nil => exact h
  | cons e entries ih => exact ih (h.put e.1 e.2)

theorem sorted_ofList (entries : List (Text × α)) : Sorted (ofList entries) :=
  Sorted.putAll List.Pairwise.nil entries

theorem Sorted.nodup_keys {m : Keyed α} (h : Sorted m) : (m.map Prod.fst).Nodup := by
  refine List.pairwise_map.mpr (List.Pairwise.imp (fun hlt heq => ?_) h)
  rw [heq, Text.lt_irrefl] at hlt
  cases hlt

/-- A map in order is the map of its entries. -/
theorem Sorted.ofList_eq {m : Keyed α} (h : Sorted m) : ofList m = m := by
  refine (sorted_ofList m).ext h fun k => ?_
  cases hk : find? k m with
  | some v => exact find?_putAll_of_mem [] h.nodup_keys (mem_of_find? hk)
  | none => exact find?_putAll [] (find?_eq_none.mp hk)

theorem Sorted.find?_reverse {m : Keyed α} (h : Sorted m) (k : Text) :
    find? k m.reverse = find? k m := by
  rw [← find?_ofList, h.ofList_eq]

theorem Sorted.map {β : Type} {m : Keyed α} (h : Sorted m) (f : α → β) :
    Sorted (m.map fun e => (e.1, f e.2)) :=
  List.pairwise_map.mpr h

/-- It makes no difference whether values are changed before or after they are put into a map. -/
theorem ofList_map {β : Type} (f : α → β) (entries : List (Text × α)) :
    ofList (entries.map fun e => (e.1, f e.2)) = (ofList entries).map fun e => (e.1, f e.2) := by
  apply (sorted_ofList _).ext ((sorted_ofList entries).map f)
  intro k
  rw [find?_ofList, ← List.map_reverse, find?_map, find?_map, find?_ofList]

end Keyed

namespace MapOrder

variable {α : Type}

theorem insert_perm (before : MapOrder) (e : Text × α) (entries : List (Text × α)) :
    (before.insert e entries).Perm (e :: entries) := by
  induction entries with
  | nil => exact .refl _
  | cons f entries ih =>
      rw [insert]
      split
      · exact (ih.cons f).trans (.swap e f entries)
      · exact .refl _

/-- However a map is gone through, each of its entries is met once. -/
theorem arrange_perm (before : MapOrder) (entries : List (Text × α)) :
    (before.arrange entries).Perm entries := by
  induction entries with
  | nil => exact .refl _
  | cons e entries ih => exact (before.insert_perm e _).trans (ih.cons e)

end MapOrder

end ServiceKit
