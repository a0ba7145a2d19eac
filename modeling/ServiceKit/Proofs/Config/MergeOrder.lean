import Mathlib
import ServiceKit.Proofs.Config.Listing
import ServiceKit.Proofs.Config.Merging

/-!
The order of a merge. Keys are listed and merged in some order, and a section may be put into the tree
before or after what is below it. If the file's keys have no points and the variables' keys with an empty
part at the start stay away from the file's, all orders come to the same tree.
-/

namespace ServiceKit.Config

namespace Tree

open Setting Text

/-! ### One setting before another -/

/-- What is put at the first name of a path. -/
def putIn (v : Setting) : List Text → Option Setting → Setting
  | [], _ => v
  | path, o => .map (put v path (below o))

theorem put_eq (v : Setting) (k : Text) (path : List Text) (t : Tree) :
    put v (k :: path) t = Keyed.put k (putIn v path (Keyed.find? k t)) t := by
  cases path <;> rfl

theorem put_comm_of_apart {p q : List Text} (h : Apart p q) (v w : Setting) {t : Tree}
    (ht : SortedTree t) : put v p (put w q t) = put w q (put v p t) := by
  induction p generalizing q t with
  | nil => exact absurd List.nil_prefix h.1
  | cons k p ih =>
      cases q with
      | nil => exact absurd List.nil_prefix h.2
      | cons l q =>
          by_cases hk : k = l
          · subst hk
            obtain ⟨hp, hq⟩ := h.tail.ne_nil
            rw [put_cons hp, put_cons hq, put_cons hq, put_cons hp, Keyed.find?_put_self,
              Keyed.find?_put_self, Keyed.put_put_self, Keyed.put_put_self]
            exact congrArg (fun u => Keyed.put k (.map u) t) (ih h.tail (ht.sub k))
          · rw [put_eq v k, put_eq w l, put_eq w l, put_eq v k, Keyed.find?_put_of_ne hk,
              Keyed.find?_put_of_ne (Ne.symm hk), ht.1.put_comm hk]

/-- What stands at the end of a path may be put there once more. -/
theorem put_of_look {p : List Text} {v : Setting} {t : Tree} (ht : SortedTree t)
    (h : look p t = some v) : put v p t = t := by
  induction p generalizing t with
  | nil => rfl
  | cons k p ih =>
      by_cases hp : p = []
      · subst hp
        exact ht.1.put_of_find? h
      · rw [look_cons hp] at h
        obtain ⟨m, hm⟩ := exists_level_of_look hp h
        rw [put_cons hp, ih (ht.sub k) h, hm]
        exact ht.1.put_of_find? hm

/-- What is put below a place is lost once something is put at the place. -/
theorem put_above {p r : List Text} (hp : p ≠ []) (hr : r ≠ []) (v w : Setting) (t : Tree) :
    put v p (put w (p ++ r) t) = put v p t := by
  induction p generalizing t with
  | nil => exact absurd rfl hp
  | cons k p ih =>
      have hlevel : put w (k :: p ++ r) t =
          Keyed.put k (.map (put w (p ++ r) (below (Keyed.find? k t)))) t :=
        put_cons (by simp [hr]) w t
      rw [hlevel]
      cases p with
      | nil => exact Keyed.put_put_self k v _ t
      | cons k' p =>
          have hne : k' :: p ≠ [] := by simp
          rw [put_cons hne, put_cons hne, Keyed.find?_put_self, Keyed.put_put_self]
          exact congrArg (fun u => Keyed.put k (.map u) t) (ih hne _)

/-- Do two settings fit at the ends of two paths? The paths stand apart, or the setting at the longer one
is what the other setting has there. -/
def Fits (p : List Text) (v : Setting) (q : List Text) (w : Setting) : Prop :=
  Apart p q ∨ (∃ r, q = p ++ r ∧ lookIn v r = some w) ∨ ∃ r, p = q ++ r ∧ lookIn w r = some v

theorem put_comm_of_below {p r : List Text} (hp : p ≠ []) {v w : Setting} (hv : SortedIn v)
    (h : lookIn v r = some w) {t : Tree} (ht : SortedTree t) :
    put v p (put w (p ++ r) t) = put w (p ++ r) (put v p t) := by
  have hlook : look (p ++ r) (put v p t) = some w := (look_put_append v hp r t).trans h
  rw [put_of_look (ht.put hv hp) hlook]
  by_cases hr : r = []
  · subst hr
    cases h
    rw [List.append_nil]
    exact put_of_look (ht.put hv hp) (look_put_self v hp t)
  · exact put_above hp hr v w t

theorem Fits.put_comm {p q : List Text} {v w : Setting} (h : Fits p v q w) (hp : p ≠ []) (hq : q ≠ [])
    (hv : SortedIn v) (hw : SortedIn w) {t : Tree} (ht : SortedTree t) :
    put v p (put w q t) = put w q (put v p t) := by
  rcases h with hapart | ⟨r, rfl, hr⟩ | ⟨r, rfl, hr⟩
  · exact put_comm_of_apart hapart v w ht
  · exact put_comm_of_below hp hv hr ht
  · exact (put_comm_of_below hq hw hr ht).symm

/-- A setting stays where it is if one is put that fits. -/
theorem Fits.look_put {p q : List Text} {v w : Setting} (h : Fits p v q w) (hp : p ≠ []) (hq : q ≠ [])
    {t : Tree} (ht : SortedTree t) (hlook : look p t = some v) : look p (put w q t) = some v := by
  rcases h with hapart | ⟨r, rfl, hr⟩ | ⟨r, rfl, hr⟩
  · rw [look_put_of_apart w hapart]
    exact hlook
  · have hbelow : look (p ++ r) t = some w := by
      rw [look_append hp, hlook]
      exact hr
    rw [put_of_look ht hbelow]
    exact hlook
  · exact (look_put_append w hq r t).trans hr

end Tree

namespace Layers

open Setting Text ServiceKit.Config.Tree

variable {l : Layers}

/-- Do the settings of some keys fit together? -/
structure Fit (l : Layers) (keys : List Text) : Prop where
  found : ∀ κ ∈ keys, ∃ o, l.get? κ = .ok o
  sorted : ∀ κ ∈ keys, ∀ v, l.get? κ = .ok (some v) → SortedIn v
  fits : ∀ κ ∈ keys, ∀ κ' ∈ keys, ∀ v w, l.get? κ = .ok (some v) → l.get? κ' = .ok (some w) →
    Fits (pathOf κ) v (pathOf κ') w

theorem Fit.of_subset {keys keys' : List Text} (h : l.Fit keys) (hsub : ∀ κ ∈ keys', κ ∈ keys) :
    l.Fit keys' where
  found κ hκ := h.found κ (hsub κ hκ)
  sorted κ hκ := h.sorted κ (hsub κ hκ)
  fits κ hκ κ' hκ' := h.fits κ (hsub κ hκ) κ' (hsub κ' hκ')

theorem Fit.tail {κ : Text} {keys : List Text} (h : l.Fit (κ :: keys)) : l.Fit keys :=
  h.of_subset fun _ => List.mem_cons_of_mem κ

/-- Keys whose settings fit together may be merged in any order. -/
theorem mergeKeys_perm {keys keys' : List Text} (hperm : keys.Perm keys') (h : l.Fit keys) {t : Tree}
    (ht : SortedTree t) : l.mergeKeys keys t = l.mergeKeys keys' t := by
  induction hperm generalizing t with
  | nil => rfl
  | cons κ _ ih =>
      obtain ⟨o, ho⟩ := h.found κ List.mem_cons_self
      rw [mergeKeys, mergeKeys, ho]
      cases o with
      | none => exact ih h.tail ht
      | some v => exact ih h.tail (ht.put (h.sorted κ List.mem_cons_self v ho) (pathOf_ne_nil κ))
  | swap κ κ' keys =>
      have hκ : κ ∈ κ' :: κ :: keys := by simp
      have hκ' : κ' ∈ κ' :: κ :: keys := by simp
      obtain ⟨o, ho⟩ := h.found κ hκ
      obtain ⟨o', ho'⟩ := h.found κ' hκ'
      simp only [mergeKeys, ho, ho']
      cases o with
      | none => rfl
      | some v =>
          cases o' with
          | none => rfl
          | some w =>
              have hcomm := (h.fits κ hκ κ' hκ' v w ho ho').put_comm (pathOf_ne_nil κ)
                (pathOf_ne_nil κ') (h.sorted κ hκ v ho) (h.sorted κ' hκ' w ho') ht
              exact congrArg (l.mergeKeys keys) hcomm
  | trans hfirst _ ih ih' =>
      exact (ih h ht).trans (ih' (h.of_subset fun κ hκ => hfirst.mem_iff.mpr hκ) ht)

/-- Keys whose settings fit together are all found in the end. -/
theorem Fit.merge {keys : List Text} (h : l.Fit keys) {t : Tree} (ht : SortedTree t) :
    ∃ t', l.mergeKeys keys t = .ok t' ∧ SortedTree t' ∧
      ∀ κ ∈ keys, ∀ v, l.get? κ = .ok (some v) → look (pathOf κ) t' = some v := by
  induction keys generalizing t with
  | nil => exact ⟨t, rfl, ht, fun κ hκ => by cases hκ⟩
  | cons κ keys ih =>
      obtain ⟨o, ho⟩ := h.found κ List.mem_cons_self
      rw [mergeKeys, ho]
      cases o with
      | none =>
          obtain ⟨t', hmerge, ht', hfound⟩ := ih h.tail ht
          refine ⟨t', hmerge, ht', fun κ' hκ' v hv => ?_⟩
          rcases List.mem_cons.mp hκ' with rfl | hκ'
          · rw [ho] at hv
            cases hv
          · exact hfound κ' hκ' v hv
      | some v =>
          have hput := ht.put (h.sorted κ List.mem_cons_self v ho) (pathOf_ne_nil κ)
          obtain ⟨t', hmerge, ht', hfound⟩ := ih h.tail hput
          refine ⟨t', hmerge, ht', fun κ' hκ' w hw => ?_⟩
          rcases List.mem_cons.mp hκ' with rfl | hκ'
          · rw [ho] at hw
            cases hw
            have hkeeps := mergeKeys_preserves
              (P := fun u => SortedTree u ∧ look (pathOf κ') u = some v) ?_
              ⟨hput, look_put_self v (pathOf_ne_nil κ') t⟩ hmerge
            · exact hkeeps.2
            · intro κ hκ w u hw hu
              have hκ := List.mem_cons_of_mem κ' hκ
              refine ⟨hu.1.put (h.sorted κ hκ w hw) (pathOf_ne_nil κ), ?_⟩
              exact (h.fits κ' List.mem_cons_self κ hκ v w ho hw).look_put (pathOf_ne_nil κ')
                (pathOf_ne_nil κ) hu.1 hu.2
          · exact hfound κ' hκ' w hw

theorem mergeKeys_append_eq {keys : List Text} {t u : Tree} (h : l.mergeKeys keys t = .ok u)
    (more : List Text) : l.mergeKeys (keys ++ more) t = l.mergeKeys more u := by
  induction keys generalizing t with
  | nil =>
      cases h
      rfl
  | cons κ keys ih =>
      rw [List.cons_append, mergeKeys]
      rw [mergeKeys] at h
      split at h
      · cases h
      · exact ih h
      · exact ih h

/-- Keys that bring nothing new may be merged too. -/
theorem mergeKeys_of_found {keys : List Text} {t : Tree} (ht : SortedTree t)
    (hok : ∀ κ ∈ keys, ∃ o, l.get? κ = .ok o)
    (h : ∀ κ ∈ keys, ∀ v, l.get? κ = .ok (some v) → look (pathOf κ) t = some v) :
    l.mergeKeys keys t = .ok t := by
  induction keys with
  | nil => rfl
  | cons κ keys ih =>
      have hrest := ih (fun κ' hκ' => hok κ' (List.mem_cons_of_mem κ hκ'))
        fun κ' hκ' => h κ' (List.mem_cons_of_mem κ hκ')
      obtain ⟨o, ho⟩ := hok κ List.mem_cons_self
      rw [mergeKeys, ho]
      cases o with
      | none => exact hrest
      | some v =>
          change l.mergeKeys keys (put v (pathOf κ) t) = .ok t
          rw [put_of_look ht (h κ List.mem_cons_self v ho)]
          exact hrest

/-- Does each setting of some keys stand at or below one of other keys? -/
def Covers (l : Layers) (keys more : List Text) : Prop :=
  ∀ κ ∈ more, ∀ v, l.get? κ = .ok (some v) →
    ∃ κ' ∈ keys, ∃ w, l.get? κ' = .ok (some w) ∧ pathOf κ' <+: pathOf κ

theorem Fit.merge_more {keys more : List Text} (h : l.Fit (keys ++ more)) (hcovers : l.Covers keys more)
    {t : Tree} (ht : SortedTree t) : l.mergeKeys (keys ++ more) t = l.mergeKeys keys t := by
  have hkeys : l.Fit keys := h.of_subset fun κ hκ => List.mem_append_left more hκ
  obtain ⟨t', hmerge, ht', hfound⟩ := hkeys.merge ht
  rw [mergeKeys_append_eq hmerge, hmerge]
  refine mergeKeys_of_found ht' (fun κ hκ => h.found κ (List.mem_append_right keys hκ)) ?_
  intro κ hκ v hv
  obtain ⟨κ', hκ', w, hw, r, hr⟩ := hcovers κ hκ v hv
  rcases h.fits κ' (List.mem_append_left more hκ') κ (List.mem_append_right keys hκ) w v hw hv with
    hapart | ⟨r', hr', hlook⟩ | ⟨r', hr', hlook⟩
  · exact absurd ⟨r, hr⟩ hapart.1
  · rw [hr', look_append (pathOf_ne_nil κ'), hfound κ' hκ' w hw]
    exact hlook
  · have hnil : r' = [] := by
      have hlength := congrArg List.length (hr' ▸ hr)
      simp only [List.length_append] at hlength
      exact List.length_eq_zero_iff.mp (by omega)
    rw [hnil, List.append_nil] at hr'
    rw [hnil] at hlook
    cases hlook
    rw [← hr']
    exact hfound κ' hκ' v hw

theorem Fit.merge_congr {keys keys' : List Text} (h : l.Fit (keys ++ keys')) (hcovers : l.Covers keys keys')
    (hcovers' : l.Covers keys' keys) : l.mergeKeys keys [] = l.mergeKeys keys' [] := by
  have hperm : (keys ++ keys').Perm (keys' ++ keys) := List.perm_append_comm
  have h' : l.Fit (keys' ++ keys) := h.of_subset fun κ hκ => hperm.mem_iff.mpr hκ
  rw [← h.merge_more hcovers sortedTree_nil, mergeKeys_perm hperm h sortedTree_nil,
    h'.merge_more hcovers' sortedTree_nil]

end Layers

namespace Tree

open Setting Text

/-! ### What is found in a file -/

theorem firstFound_range {find : Nat → Except Defect (Option Setting)} {n : Nat}
    (h : ∀ i < n, find (i + 1) = .ok none) : firstFound find (List.range (n + 1)).reverse = find 0 := by
  induction n with
  | zero => exact firstFound_single find 0
  | succ n ih =>
      rw [List.range_succ, List.reverse_append]
      exact (firstFound_of_none (h n (by omega)) _).trans (ih fun i hi => h i (by omega))

/-- Parts of a path that are taken together are no key of one part. -/
theorem find?_joined {t : Tree} (ht : everyEntry isStep t = true) (k k' : Text) (r : List Text) :
    Keyed.find? (lower (join [0x2E] (k :: k' :: r))) t = none := by
  refine Keyed.find?_eq_none.mpr fun e he hkey => ?_
  have hpoint : 0x2E ∉ e.1 := (isStep_iff.mp (everyEntry_iff.mp ht e he).1).2
  rw [hkey, lower_join isDivider_point] at hpoint
  exact hpoint (by simp [join])

/-- Among keys of one part, a path is followed one part at a time. -/
theorem search_cons {k : Text} (hk : k.lower = k) {t : Tree} (ht : everyEntry isStep t = true)
    (fuel : Nat) (r : List Text) :
    search (fuel + 1) (.map t) (k :: r) = searchRest fuel r (Keyed.find? k t) := by
  rw [search_succ, List.length_cons]
  refine (firstFound_range fun i hi => ?_).trans ?_
  · obtain ⟨k', r, rfl⟩ := List.exists_cons_of_length_pos (Nat.zero_lt_of_lt hi)
    rw [List.take_succ_cons, List.take_succ_cons, child?, find?_joined ht]
    change searchRest fuel _ none = _
    cases (k :: k' :: r).drop (i + 1 + 1) <;> rfl
  · change searchRest fuel r (Keyed.find? (join [0x2E] [k]).lower t) = _
    rw [join, hk]

theorem search_of_look {p : List Text} (hp : p ≠ []) (hlower : ∀ k ∈ p, k.lower = k) {t : Tree}
    (ht : everyEntry isStep t = true) {x : Setting} (h : look p t = some x) :
    search p.length (.map t) p = .ok (given? (some x)) := by
  induction p generalizing t with
  | nil => exact absurd rfl hp
  | cons k p ih =>
      rw [List.length_cons, search_cons (hlower k List.mem_cons_self) ht]
      by_cases hp' : p = []
      · subst hp'
        rw [show Keyed.find? k t = some x from h]
        rfl
      · rw [look_cons hp'] at h
        obtain ⟨m, hm⟩ := exists_level_of_look hp' h
        rw [hm] at h ⊢
        have hrest := ih hp' (fun k' hk' => hlower k' (List.mem_cons_of_mem k hk'))
          (everyKey_of_find? ht hm) h
        cases p with
        | nil => exact absurd rfl hp'
        | cons k' p => exact hrest

theorem search_of_not_found {k : Text} (hk : k.lower = k) {t : Tree} (ht : everyEntry isStep t = true)
    (h : Keyed.find? k t = none) (fuel : Nat) (r : List Text) :
    search (fuel + 1) (.map t) (k :: r) = .ok none := by
  rw [search_cons hk ht, h]
  cases r <;> rfl

end Tree

/-! ### Layers that may be merged in any order -/

namespace Layers

open Setting Text ServiceKit.Config.Tree

/-- Layers of texts above a file whose keys have no points. What the texts have below the empty name
stays away from the file. -/
structure Regular (l : Layers) : Prop where
  texts : OnlyTexts l.overrides
  sorted : SortedTree l.overrides
  steps : everyEntry isStep l.overrides = true
  fileSorted : SortedTree l.file
  fileSteps : everyEntry isStep l.file = true
  named : Keyed.find? [] l.file = none
  aside : ∀ n k r x, (∀ m, x ≠ .map m) → look (List.replicate (n + 1) [] ++ k :: r) l.overrides = some x →
    Keyed.find? k l.file = none

/-- Does a key name a plain value of one of the layers? -/
def Names (l : Layers) (κ : Text) : Prop := Tree.Names l.overrides κ ∨ Tree.Names l.file κ

/-- Keys as they may be listed: every plain value is listed or a key on the way to it is. -/
structure Lists (l : Layers) (keys : List Text) : Prop where
  names : ∀ κ ∈ keys, l.Names κ
  listed : ∀ κ, l.Names κ → ∃ κ' ∈ keys, pathOf κ' <+: pathOf κ

variable {l : Layers}

theorem Regular.lists_keys (hl : l.Regular) : l.Lists l.keys where
  names κ hκ := by
    rcases names_of_mem_levelKeys hl.fileSorted hl.fileSteps hκ with hκ | hκ
    · rcases names_of_mem_levelKeys hl.sorted hl.steps hκ with hκ | hκ
      · cases hκ
      · exact .inl hκ
    · exact .inr hκ
  listed κ hκ := by
    rcases hκ with hκ | hκ
    · obtain ⟨κ', hκ', hpath⟩ := hκ.listed hl.steps []
      exact ⟨κ', mem_levelKeys_of_mem hκ' [] l.file, hpath⟩
    · exact hκ.listed hl.fileSteps _

theorem Regular.lower (hl : l.Regular) {κ : Text} (h : l.Names κ) : κ.lower = κ := by
  rcases h with h | h
  · exact h.lower hl.steps
  · exact h.lower hl.fileSteps

/-- In the file nothing is below the empty name. -/
theorem Regular.look_file (hl : l.Regular) {κ : Text} (h : Tree.Names l.file κ) :
    ∃ x, (∀ m, x ≠ .map m) ∧ look (pathOf κ) l.file = some x := by
  obtain ⟨-, n, x, hx, hlook⟩ := h
  cases n with
  | zero => exact ⟨x, hx, hlook⟩
  | succ n =>
      have hne : List.replicate n [] ++ pathOf κ ≠ [] := by simp [pathOf_ne_nil]
      rw [List.replicate_succ, List.cons_append, look_cons hne, hl.named] at hlook
      exact absurd (exists_level_of_look hne hlook) (by simp)

/-- The setting of a key that is not among the overrides is a plain value of the file, if there is one. -/
theorem Regular.get?_cases (hl : l.Regular) {κ : Text} (h : l.Names κ) :
    (∃ v, look (pathOf κ) l.overrides = some v ∧ l.get? κ = .ok (some v)) ∨
      l.get? κ = .ok none ∨
      ∃ x, (∀ m, x ≠ .map m) ∧ look (pathOf κ) l.file = some x ∧ l.get? κ = .ok (some x) := by
  have hlower := hl.lower h
  cases hlook : look (pathOf κ) l.overrides with
  | some v => exact .inl ⟨v, rfl, get?_of_look hl.texts hlower hlook⟩
  | none =>
      refine .inr ?_
      have hget : l.get? κ = if hides (pathOf κ) l.overrides then .ok none
          else search (pathOf κ).length (.map l.file) (pathOf κ) := by
        rw [get?, hlower, hl.texts.at?_eq_look, hlook]
        rfl
      rw [hget]
      split
      · exact .inl rfl
      · have hparts : ∀ k ∈ pathOf κ, k.lower = k := fun k hk =>
          lower_of_mem_split isDivider_point hlower hk
        rcases h with ⟨-, n, x, hx, hover⟩ | hfile
        · -- what is only below the empty name is not in the file
          obtain ⟨k, r, hpath⟩ := List.exists_cons_of_ne_nil (pathOf_ne_nil κ)
          cases n with
          | zero => exact absurd (hover.symm.trans hlook) (by simp)
          | succ n =>
              rw [hpath] at hover hparts ⊢
              exact .inl (search_of_not_found (hparts k List.mem_cons_self) hl.fileSteps
                (hl.aside n k r x hx hover) _ r)
        · obtain ⟨x, hx, hlook⟩ := hl.look_file hfile
          rw [search_of_look (pathOf_ne_nil κ) hparts hl.fileSteps hlook]
          cases x with
          | null => exact .inl rfl
          | map m => exact absurd rfl (hx m)
          | _ => exact .inr ⟨_, hx, hlook, rfl⟩

/-- A key above one that has a setting is among the overrides, and the setting is part of what it has
there. -/
theorem Regular.part_of_above (hl : l.Regular) {κ κ' : Text} (hκ : l.Names κ) (hκ' : l.Names κ')
    {r : List Text} (hr : r ≠ []) (hpath : pathOf κ = pathOf κ' ++ r) {v : Setting}
    (hv : l.get? κ = .ok (some v)) : ∃ w, l.get? κ' = .ok (some w) ∧ lookIn w r = some v := by
  rcases hl.get?_cases hκ with ⟨v', hlook, hget⟩ | hget | ⟨x, -, hfile, -⟩
  · rw [hget] at hv
    cases hv
    rw [hpath, look_append (pathOf_ne_nil κ')] at hlook
    obtain ⟨w, hw, hpart⟩ := Option.bind_eq_some_iff.mp hlook
    exact ⟨w, get?_of_look hl.texts (hl.lower hκ') hw, hpart⟩
  · rw [hget] at hv
    cases hv
  · -- the file has a value below the key, so the key names no value of the file, and neither one below
    -- the empty name; a text of the overrides would hide the value
    exfalso
    rcases hκ' with ⟨-, n, y, hy, hover⟩ | hκ'
    · cases n with
      | zero =>
          rcases hl.texts _ y (pathOf_ne_nil κ') hover with ⟨s, rfl⟩ | ⟨m, rfl⟩
          · rw [get?_of_hidden hl.texts (hl.lower hκ) (pathOf_ne_nil κ') hr hpath hover] at hv
            cases hv
          · exact hy m rfl
      | succ n =>
          obtain ⟨k, r', hk⟩ := List.exists_cons_of_ne_nil (pathOf_ne_nil κ')
          rw [hk] at hover hpath
          rw [hpath, List.cons_append, look_cons (by simp [hr]), hl.aside n k r' y hy hover] at hfile
          exact absurd (exists_level_of_look (by simp [hr]) hfile) (by simp)
    · obtain ⟨y, hy, hlook⟩ := hl.look_file hκ'
      rw [hpath, look_append (pathOf_ne_nil κ'), hlook] at hfile
      exact absurd (hfile.symm.trans (lookIn_plain hy hr)) (by simp)

theorem Regular.fit (hl : l.Regular) {keys : List Text} (hkeys : ∀ κ ∈ keys, l.Names κ) : l.Fit keys where
  found κ hκ := by
    rcases hl.get?_cases (hkeys κ hκ) with ⟨v, -, hget⟩ | hget | ⟨x, -, -, hget⟩
    · exact ⟨some v, hget⟩
    · exact ⟨none, hget⟩
    · exact ⟨some x, hget⟩
  sorted κ hκ v hv := by
    rcases hl.get?_cases (hkeys κ hκ) with ⟨v', hlook, hget⟩ | hget | ⟨x, hx, -, hget⟩
    · rw [hget] at hv
      cases hv
      intro r m hm
      refine hl.sorted.2 (pathOf κ ++ r) m ?_
      rw [look_append (pathOf_ne_nil κ), hlook]
      exact hm
    · rw [hget] at hv
      cases hv
    · rw [hget] at hv
      cases hv
      exact sortedIn_of_plain hx
  fits κ hκ κ' hκ' v w hv hw := by
    have hbelow : ∀ {κ κ' : Text} {v w : Setting}, κ ∈ keys → κ' ∈ keys → l.get? κ = .ok (some v) →
        l.get? κ' = .ok (some w) → ∀ {r}, r ≠ [] → pathOf κ = pathOf κ' ++ r → lookIn w r = some v := by
      intro κ κ' v w hκ hκ' hv hw r hr hpath
      obtain ⟨w', hw', hpart⟩ := hl.part_of_above (hkeys κ hκ) (hkeys κ' hκ') hr hpath hv
      rw [hw] at hw'
      cases hw'
      exact hpart
    rcases path_cases (pathOf κ) (pathOf κ') with ⟨r, hr⟩ | ⟨r, hne, hr⟩ | hapart
    · refine .inr (.inr ⟨r, hr, ?_⟩)
      by_cases hne : r = []
      · rw [hne, List.append_nil] at hr
        obtain rfl := split_injective 0x2E hr
        rw [hv] at hw
        cases hw
        rw [hne]
        rfl
      · exact hbelow hκ hκ' hv hw hne hr
    · exact .inr (.inl ⟨r, hr, hbelow hκ' hκ hw hv hne hr⟩)
    · exact .inl hapart

theorem Regular.covers (hl : l.Regular) {keys more : List Text} (hkeys : l.Lists keys)
    (hmore : ∀ κ ∈ more, l.Names κ) : l.Covers keys more := by
  intro κ hκ v hv
  obtain ⟨κ', hκ', r, hr⟩ := hkeys.listed κ (hmore κ hκ)
  by_cases hne : r = []
  · rw [hne, List.append_nil] at hr
    obtain rfl := split_injective 0x2E hr
    exact ⟨κ', hκ', v, hv, List.prefix_rfl⟩
  · obtain ⟨w, hw, -⟩ := hl.part_of_above (hmore κ hκ) (hkeys.names κ' hκ') hne hr.symm hv
    exact ⟨κ', hκ', w, hw, r, hr⟩

/-- However the keys are listed and in whatever order, the merge comes to the same. -/
theorem Regular.mergeKeys_eq (hl : l.Regular) {keys : List Text} (hkeys : l.Lists keys) :
    l.mergeKeys keys [] = l.merged := by
  have hlists := hl.lists_keys
  have hall : ∀ κ ∈ keys ++ l.keys, l.Names κ := fun κ hκ =>
    (List.mem_append.mp hκ).elim (hkeys.names κ) (hlists.names κ)
  exact (hl.fit hall).merge_congr (hl.covers hkeys hlists.names) (hl.covers hlists hkeys.names)

/-- Do the keys of a variable that start with an empty part stay away from the upper names of a file? -/
def StaysAside (lead : Text) (file : Tree) (e : Text × Text) : Prop :=
  ∀ w ∈ writes lead e, w.1.head? = some [] → ∀ k ∈ (w.1.dropWhile List.isEmpty).head?,
    Keyed.find? k file = none

instance (lead : Text) (file : Tree) (e : Text × Text) : Decidable (StaysAside lead file e) :=
  inferInstanceAs (Decidable (∀ w ∈ writes lead e, _))

theorem regular_bind {lead : Text} {env : Environment} {file : Tree} (hsorted : SortedTree file)
    (hsteps : everyEntry isStep file = true) (hnamed : Keyed.find? [] file = none)
    (haside : ∀ e ∈ env, StaysAside lead file e) :
    (({ file := file } : Layers).bind lead env).Regular := by
  have hfile : (({ file := file } : Layers).bind lead env).file = file := by rw [bind_eq]
  have hover : (({ file := file } : Layers).bind lead env).overrides =
      putTexts (env.flatMap (writes lead)) [] := by rw [bind_eq]
  constructor
  · exact onlyTexts_bind lead env file
  · rw [hover]
    exact sortedTree_nil.putTexts writes_ne_nil
  · rw [hover]
    refine everyEntry_putTexts (fun w hw k hk => ?_) rfl
    obtain ⟨e, -, hw⟩ := List.mem_flatMap.mp hw
    obtain ⟨name, key, -, hkey, rfl⟩ := mem_writes hw
    exact isStep_iff.mpr ⟨lower_of_mem_split isDivider_point (lower_of_mem_keyVariants hkey) hk,
      not_mem_of_mem_split hk⟩
  · rw [hfile]
    exact hsorted
  · rw [hfile]
    exact hsteps
  · rw [hfile]
    exact hnamed
  · intro n k r x hx hlook
    rw [hover] at hlook
    rw [hfile]
    by_cases hk : k = []
    · exact hk ▸ hnamed
    rcases look_putTexts_source (by simp) writes_ne_nil hlook with ⟨s, -, hmem⟩ | ⟨m, hm, -⟩
    · obtain ⟨e, he, hw⟩ := List.mem_flatMap.mp hmem
      refine haside e he _ hw (by simp [List.replicate_succ]) k ?_
      simp [List.dropWhile_append_of_pos, hk]
    · exact absurd hm (hx m)

end Layers

end ServiceKit.Config
