import Mathlib
import ServiceKit.Proofs.Config.KeyVariants

/-!
The keys of a name are exactly its spellings: the name in lower case with none, all or one of its
underscores read as points. Each stands in the list once, and no name without points shares one with a
name that has other letters.
-/

namespace ServiceKit.Config

open Text

/-- A text with none, all or exactly one of its underscores read as points. -/
inductive Spelling (s : Text) : Text → Prop
  | plain : Spelling s s
  | nested : Spelling s (s.swap 0x5F 0x2E)
  | divided (head tail : Text) : s = head ++ 0x5F :: tail → Spelling s (head ++ 0x2E :: tail)

/-- Two parts of the pieces of a text, put together each, are what stands before and after one dividing
byte. -/
theorem exists_parts_iff {b c : UInt8} {s w : Text} :
    (∃ xs ys, xs ++ ys = split b s ∧ xs ≠ [] ∧ ys ≠ [] ∧ w = join [b] xs ++ c :: join [b] ys) ↔
      ∃ head tail, s = head ++ b :: tail ∧ w = head ++ c :: tail := by
  constructor
  · rintro ⟨xs, ys, hparts, hx, hy, rfl⟩
    refine ⟨join [b] xs, join [b] ys, ?_, rfl⟩
    rw [← join_append b hx hy, hparts, join_split]
  · rintro ⟨head, tail, rfl, rfl⟩
    refine ⟨split b head, split b tail, ?_, split_ne_nil b head, split_ne_nil b tail, ?_⟩
    · exact (split_append_sep b head tail).symm
    · rw [join_split, join_split]

theorem mem_keyVariants_iff_spelling {name w : Text} :
    w ∈ keyVariants name ↔ Spelling name.lower w := by
  rw [mem_keyVariants, exists_parts_iff]
  constructor
  · rintro (rfl | rfl | ⟨head, tail, hname, rfl⟩)
    · exact .plain
    · exact .nested
    · exact .divided head tail hname
  · intro h
    cases h with
    | plain => exact .inl rfl
    | nested => exact .inr (.inl rfl)
    | divided head tail hname => exact .inr (.inr ⟨head, tail, hname, rfl⟩)

theorem nodup_removeDuplicates (items : List Text) : (removeDuplicates items).Nodup := by
  -- the rest is searched only after it is rid of the first item, so the induction is on the length
  induction hn : items.length using Nat.strong_induction_on generalizing items with
  | _ n ih =>
      cases items with
      | nil => exact List.nodup_nil
      | cons item items =>
          subst hn
          have hshorter : (items.filter fun w => !w == item).length < (item :: items).length :=
            Nat.lt_succ_of_le (List.length_filter_le _ items)
          have hrest := ih _ hshorter _ rfl
          rw [removeDuplicates, List.eraseDups_cons, List.nodup_cons]
          refine ⟨?_, hrest⟩
          intro hmem
          have hkept := (List.mem_filter.mp (List.mem_eraseDups.mp hmem)).2
          simp at hkept

theorem nodup_keyVariants (name : Text) : (keyVariants name).Nodup := by
  unfold keyVariants
  simp only
  split
  · exact List.nodup_singleton _
  · exact List.nodup_singleton _
  · exact nodup_removeDuplicates _

theorem head?_keyVariants (name : Text) : (keyVariants name).head? = some name.lower := by
  unfold keyVariants
  simp only
  split
  · rfl
  · rfl
  · rw [removeDuplicates, List.eraseDups_cons]
    rfl

theorem lower_divided {name head tail : Text} (h : name.lower = Text.lower (head ++ 0x5F :: tail)) :
    Text.lower (head ++ 0x2E :: tail) ∈ keyVariants name := by
  rw [lower_append_divider isDivider_point]
  rw [lower_append_divider isDivider_underscore] at h
  exact mem_keyVariants_of_divided h

/-- Names share a key exactly if they are the same in lower case. -/
theorem shared_key_iff {n n' : Text} (hn : 0x2E ∉ n) (hn' : 0x2E ∉ n') :
    (∃ w, w ∈ keyVariants n ∧ w ∈ keyVariants n') ↔ n.lower = n'.lower := by
  constructor
  · rintro ⟨w, hw, hw'⟩
    exact (swap_of_mem_keyVariants hn hw).symm.trans (swap_of_mem_keyVariants hn' hw')
  · intro h
    refine ⟨n.lower, mem_keyVariants_iff_spelling.mpr .plain, ?_⟩
    rw [h]
    exact mem_keyVariants_iff_spelling.mpr .plain

/-- The keys of a name without points start with the name in lower case and are its spellings, each of
them once. A path of two levels is a key of the name that has an underscore in place of the point; every
key read with underscores for points is the name again, and only names that are the same in lower case
share a key. -/
theorem keyVariants_spellings (name : Text) (hname : 0x2E ∉ name) :
    (keyVariants name).Nodup ∧ (keyVariants name).head? = some name.lower ∧
      (∀ w, w ∈ keyVariants name ↔ Spelling name.lower w) ∧
      (∀ head tail, name.lower = Text.lower (head ++ 0x5F :: tail) →
        Text.lower (head ++ 0x2E :: tail) ∈ keyVariants name) ∧
      (∀ w ∈ keyVariants name, w.swap 0x2E 0x5F = name.lower) ∧
      ∀ name', 0x2E ∉ name' →
        ((∃ w, w ∈ keyVariants name ∧ w ∈ keyVariants name') ↔ name.lower = name'.lower) := by
  refine ⟨nodup_keyVariants name, head?_keyVariants name, fun w => mem_keyVariants_iff_spelling,
    fun head tail h => lower_divided h, fun w hw => swap_of_mem_keyVariants hname hw, ?_⟩
  intro name' hname'
  exact shared_key_iff hname hname'

theorem keyVariants_spellings_doubled :
    0x2E ∉ utf8 "Log__A" ∧ (keyVariants (utf8 "Log__A")).head? = some (utf8 "log__a") ∧
      (∀ w, w ∈ keyVariants (utf8 "Log__A") ↔ Spelling (utf8 "log__a") w) ∧
      utf8 "log_.a" ∈ keyVariants (utf8 "Log__A") ∧
      (∃ w, w ∈ keyVariants (utf8 "Log__A") ∧ w ∈ keyVariants (utf8 "lOG__a")) ∧
      ¬∃ w, w ∈ keyVariants (utf8 "Log__A") ∧ w ∈ keyVariants (utf8 "Log_A") := by
  have hpoint : 0x2E ∉ utf8 "Log__A" := by decide
  have hlower : (utf8 "Log__A").lower = utf8 "log__a" := by decide +kernel
  obtain ⟨-, hhead, hspelled, hpath, -, hshared⟩ := keyVariants_spellings _ hpoint
  refine ⟨hpoint, hlower ▸ hhead, hlower ▸ hspelled, ?_, ?_, ?_⟩
  · exact hpath (utf8 "log_") (utf8 "A") (by decide +kernel)
  · exact (hshared _ (by decide)).mpr (by decide +kernel)
  · rw [hshared _ (by decide)]
    decide +kernel

end ServiceKit.Config
