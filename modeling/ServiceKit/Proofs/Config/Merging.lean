import Mathlib
import ServiceKit.Proofs.Config.Binding
import ServiceKit.Proofs.Config.Keys

/-!
What stands at the end of a path once all keys of two layers are put into one tree: a text of the
overrides if there is one, and else what the file says, unless the path's section is listed as a key
and the overrides have the section.
-/

namespace ServiceKit.Config

namespace Tree

open Setting Text

theorem firstFound_single (find : Nat → Except Defect (Option Setting)) (i : Nat) :
    firstFound find [i] = find i := by
  rw [firstFound]
  cases find i with
  | error d => rfl
  | ok v => cases v <;> rfl

theorem firstFound_of_none {find : Nat → Except Defect (Option Setting)} {i : Nat}
    (h : find i = .ok none) (rest : List Nat) : firstFound find (i :: rest) = firstFound find rest := by
  rw [firstFound, h]

/-- What is found below what a part of the path led to. -/
def searchRest (fuel : Nat) (rest : List Text) (next : Option Setting) : Except Defect (Option Setting) :=
  match rest, next.bind searchable? with
  | [], _ => .ok (given? next)
  | _ :: _, none => .ok none
  | rest, some below => search fuel below rest

theorem search_succ (fuel : Nat) (v : Setting) (path : List Text) :
    search (fuel + 1) v path = firstFound (fun i =>
      child? (lower (join [0x2E] (path.take (i + 1)))) v >>= searchRest fuel (path.drop (i + 1)))
        (List.range path.length).reverse := rfl

theorem search_single {k : Text} (hk : k.lower = k) (v : Setting) (n : Nat) :
    search (n + 1) v [k] = (child? k v).map given? := by
  rw [search_succ]
  refine (firstFound_single _ 0).trans ?_
  change (child? k.lower v >>= searchRest n []) = _
  rw [hk]
  cases child? k v <;> rfl

theorem search_pair {k k' : Text} (hk : k.lower = k) (hk' : k'.lower = k')
    (hnum : ∀ i, Number.integerOf 10 k' ≠ .ok i) {file : Tree}
    (hpoint : Keyed.find? (k ++ 0x2E :: k') file = none)
    (htable : ∀ es, Keyed.find? k file ≠ some (.table es)) :
    search 2 (.map file) [k, k'] = .ok (given? (look [k, k'] file)) := by
  have hjoin : (join [0x2E] [k, k']).lower = k ++ 0x2E :: k' := by
    rw [lower_join isDivider_point, List.map_cons, List.map_singleton, hk, hk']
    simp [join]
  rw [search_succ]
  refine (firstFound_of_none (i := 1) ?_ [0]).trans ((firstFound_single _ 0).trans ?_)
  · change (child? (join [0x2E] [k, k']).lower (.map file) >>= searchRest 1 []) = _
    rw [hjoin, child?, hpoint]
    rfl
  · change (child? k.lower (.map file) >>= searchRest 1 [k']) = _
    rw [hk, child?, look_cons (by simp)]
    change searchRest 1 [k'] (Keyed.find? k file) = _
    cases hv : Keyed.find? k file with
    | none => rfl
    | some v =>
        cases v with
        | table es => exact absurd hv (htable es)
        | map m => exact search_single hk' (.map m) 0
        | list items =>
            refine (search_single hk' (.list items) 0).trans ?_
            rw [child?]
            cases hi : Number.integerOf 10 k' with
            | ok i => exact absurd hi (hnum i)
            | error e => rfl
        | _ => rfl

theorem exists_of_firstFound {find : Nat → Except Defect (Option Setting)} {is : List Nat}
    {v : Setting} (h : firstFound find is = .ok (some v)) : ∃ i, find i = .ok (some v) := by
  induction is with
  | nil => cases h
  | cons i is ih =>
      rw [firstFound] at h
      split at h
      · exact ih h
      · exact ⟨i, h⟩

theorem everyKey_child? {f : Text → Bool} {key : Text} {v x : Setting} (hv : everyKey f v = true)
    (h : child? key v = .ok (some x)) : everyKey f x = true := by
  cases v with
  | map entries => exact everyKey_of_find? hv (Except.ok.inj h)
  | list items =>
      rw [child?] at h
      split at h
      · split at h
        · cases h
        · exact everyItem_iff.mp hv x (List.mem_of_getElem? (Except.ok.inj h))
      · cases h
  | _ => cases h

theorem everyKey_searchable? {f : Text → Bool} {v x : Setting} (hv : everyKey f v = true)
    (h : searchable? v = some x) : everyKey f x = true := by
  cases v with
  | table entries => cases hv
  | list items =>
      cases h
      exact hv
  | map entries =>
      cases h
      exact hv
  | _ => cases h

theorem given?_eq_some {o : Option Setting} {v : Setting} (h : given? o = some v) : o = some v := by
  unfold given? at h
  split at h
  · cases h
  · exact h

/-- What a search finds has the keys of what is searched. -/
theorem everyKey_search {f : Text → Bool} {fuel : Nat} {v x : Setting} {path : List Text}
    (hv : everyKey f v = true) (h : search fuel v path = .ok (some x)) : everyKey f x = true := by
  induction fuel generalizing v path with
  | zero => cases h
  | succ fuel ih =>
      rw [search_succ] at h
      obtain ⟨i, hi⟩ := exists_of_firstFound h
      cases hnext : child? (lower (join [0x2E] (path.take (i + 1)))) v with
      | error d =>
          rw [hnext] at hi
          cases hi
      | ok next =>
          rw [hnext] at hi
          change searchRest fuel (path.drop (i + 1)) next = _ at hi
          unfold searchRest at hi
          split at hi
          · have hsome := given?_eq_some (Except.ok.inj hi)
            exact everyKey_child? hv (hsome ▸ hnext)
          · cases hi
          · rename_i below hbelow _
            obtain ⟨y, hy, hsearch⟩ := Option.bind_eq_some_iff.mp hbelow
            exact ih (everyKey_searchable? (everyKey_child? hv (hy ▸ hnext)) hsearch) hi

theorem hides_of_look {p r : List Text} {s : Text} {t : Tree} (hr : r ≠ []) (hp : p ≠ [])
    (h : look p t = some (.string s)) : hides (p ++ r) t = true := by
  induction p generalizing t with
  | nil => exact absurd rfl hp
  | cons k p ih =>
      have hne : ((p ++ r).isEmpty) = false := by simp [hr]
      rw [List.cons_append, hides, hne]
      cases p with
      | nil =>
          rw [show Keyed.find? k t = some (.string s) from h]
          rfl
      | cons k' p =>
          rw [look_cons (by simp)] at h
          obtain ⟨m, hm⟩ := exists_level_of_look (by simp) h
          rw [hm] at h ⊢
          exact ih (by simp) h

theorem hides_nil_tree (path : List Text) : hides path [] = false := by
  cases path with
  | nil => rfl
  | cons k path =>
      rw [hides]
      split <;> rfl

theorem hides_cons_congr {k : Text} {t t' : Tree} (h : Keyed.find? k t = Keyed.find? k t')
    (path : List Text) : hides (k :: path) t = hides (k :: path) t' := by
  rw [hides, hides, h]

/-- Through a level that is none or a map, hiding is decided below. -/
theorem hides_cons {k x : Text} {path : List Text} {t : Tree} (ht : OnlyTexts t)
    (htext : ∀ s, Keyed.find? k t ≠ some (.string s)) :
    hides (k :: x :: path) t = hides (x :: path) (below (Keyed.find? k t)) := by
  cases hv : Keyed.find? k t with
  | none =>
      rw [hides, hv]
      exact (hides_nil_tree (x :: path)).symm
  | some v =>
      rcases ht [k] v (by simp) hv with ⟨s, rfl⟩ | ⟨m, rfl⟩
      · exact absurd hv (htext s)
      · rw [hides, hv]
        rfl

end Tree

namespace Layers

open Setting Text ServiceKit.Config.Tree

theorem lower_of_mem_keys {l : Layers} {κ : Text} (h : κ ∈ l.keys) : κ.lower = κ := by
  rcases lower_of_mem_levelKeys [] l.file h with h | h
  · rcases lower_of_mem_levelKeys [] l.overrides h with h | h
    · cases h
    · exact h
  · exact h

theorem lower_bind (lead : Text) (env : Environment) (file : Tree) :
    everyEntry isLowerKey (({ file := file } : Layers).bind lead env).overrides = true := by
  rw [bind_eq]
  refine everyEntry_putTexts (fun w hw k hk => ?_) rfl
  obtain ⟨e, -, hw⟩ := List.mem_flatMap.mp hw
  obtain ⟨name, key, -, hkey, rfl⟩ := mem_writes hw
  rw [isLowerKey, lower_of_mem_split isDivider_point (lower_of_mem_keyVariants hkey) hk,
    beq_self_eq_true]

/-! ### One key -/

theorem get?_of_hidden {l : Layers} (hl : OnlyTexts l.overrides) {key s : Text} {p r : List Text}
    (hkey : key.lower = key) (hp : p ≠ []) (hr : r ≠ []) (hpath : pathOf key = p ++ r)
    (h : look p l.overrides = some (.string s)) : l.get? key = .ok none := by
  have hnone : look (p ++ r) l.overrides = none := by
    rw [look_append hp, h]
    exact (lookIn_of_ne_nil hr (.string s)).trans (look_nil_tree hr)
  rw [get?, hkey, hl.at?_eq_look, hpath, hnone, given?, if_pos (hides_of_look hr hp h)]
  simp

theorem get?_single {l : Layers} {key : Text} (hkey : key.lower = key) (hpath : pathOf key = [key])
    (h : Keyed.find? key l.overrides = none) :
    l.get? key = .ok (given? (look [key] l.file)) := by
  have hat : at? [key] l.overrides = none := h
  have hhides : hides [key] l.overrides = false := rfl
  rw [get?, hkey, hpath, hat, hhides]
  exact search_single hkey (.map l.file) 0

/-- A key of two parts that is not among the overrides is read from the file, if no text of the
overrides stands for its section. -/
theorem get?_pair {l : Layers} (hl : OnlyTexts l.overrides) {key k k' : Text} (hkey : key.lower = key)
    (hk : k.lower = k) (hk' : k'.lower = k') (hpath : pathOf key = [k, k'])
    (hnum : ∀ i, Number.integerOf 10 k' ≠ .ok i)
    (htext : ∀ s, Keyed.find? k l.overrides ≠ some (.string s))
    (h : look [k, k'] l.overrides = none)
    (hpoint : Keyed.find? (k ++ 0x2E :: k') l.file = none)
    (htable : ∀ es, Keyed.find? k l.file ≠ some (.table es)) :
    l.get? key = .ok (given? (look [k, k'] l.file)) := by
  have hhides : hides [k, k'] l.overrides = false := hides_cons hl htext
  rw [get?, hkey, hl.at?_eq_look, hpath, h, hhides]
  exact search_pair hk hk' hnum hpoint htable

theorem everyKey_get? {f : Text → Bool} {l : Layers} (hl : OnlyTexts l.overrides)
    (ho : everyEntry f l.overrides = true) (hf : everyEntry f l.file = true) {key : Text}
    {v : Setting} (h : l.get? key = .ok (some v)) : everyKey f v = true := by
  rw [get?] at h
  split at h
  · rename_i x hx
    cases h
    exact everyKey_of_look ho ((hl.at?_eq_look _).symm.trans (given?_eq_some hx))
  · split at h
    · cases h
    · exact everyKey_search (v := .map l.file) hf h

/-! ### All keys -/

/-- What every step keeps holds in the end. -/
theorem mergeKeys_preserves {l : Layers} {P : Tree → Prop} {keys : List Text}
    (hstep : ∀ κ ∈ keys, ∀ v t, l.get? κ = .ok (some v) → P t → P (put v (pathOf κ) t))
    {t t' : Tree} (ht : P t) (h : l.mergeKeys keys t = .ok t') : P t' := by
  induction keys generalizing t with
  | nil =>
      cases h
      exact ht
  | cons κ keys ih =>
      have hrest := fun κ' hκ' => hstep κ' (List.mem_cons_of_mem κ hκ')
      rw [mergeKeys] at h
      split at h
      · cases h
      · exact ih hrest ht h
      · rename_i v hv
        exact ih hrest (hstep κ List.mem_cons_self v t hv ht) h

theorem mergeKeys_append {l : Layers} {keys keys' : List Text} {t t' : Tree}
    (h : l.mergeKeys (keys ++ keys') t = .ok t') :
    ∃ u, l.mergeKeys keys t = .ok u ∧ l.mergeKeys keys' u = .ok t' := by
  induction keys generalizing t with
  | nil => exact ⟨t, rfl, h⟩
  | cons κ keys ih =>
      rw [List.cons_append, mergeKeys] at h
      rw [mergeKeys]
      split at h
      · cases h
      · exact ih h
      · exact ih h

/-- What one key brings about and every later key keeps holds in the end. -/
theorem mergeKeys_reaches {l : Layers} {P : Tree → Prop} {before after : List Text} {key : Text}
    {v : Setting} (hget : l.get? key = .ok (some v)) (hat : ∀ t, P (put v (pathOf key) t))
    (hstep : ∀ κ ∈ after, ∀ v t, l.get? κ = .ok (some v) → P t → P (put v (pathOf κ) t))
    {t t' : Tree} (h : l.mergeKeys (before ++ key :: after) t = .ok t') : P t' := by
  obtain ⟨u, -, hu⟩ := mergeKeys_append h
  rw [mergeKeys, hget] at hu
  exact mergeKeys_preserves hstep (hat u) hu

/-- What is merged from keys in lower case has keys in lower case. -/
theorem lower_merged {l : Layers} (hl : OnlyTexts l.overrides)
    (ho : everyEntry isLowerKey l.overrides = true) (hf : everyEntry isLowerKey l.file = true) {t : Tree}
    (ht : l.merged = .ok t) : everyEntry isLowerKey t = true := by
  refine mergeKeys_preserves (P := fun u => everyEntry isLowerKey u = true) ?_ rfl ht
  intro κ hκ v u hget hu
  refine everyEntry_put (everyKey_get? hl ho hf hget) ?_ hu
  intro k hk
  rw [isLowerKey, lower_of_mem_split isDivider_point (lower_of_mem_keys hκ) hk, beq_self_eq_true]

/-- A key at or above a text of the overrides brings the text, and no other key takes it away. -/
theorem merged_look_text {l : Layers} (hl : OnlyTexts l.overrides)
    {p : List Text} (hp : p ≠ []) {s : Text} (h : look p l.overrides = some (.string s))
    (hlisted : ∃ κ ∈ l.keys, pathOf κ <+: p) {t : Tree} (ht : l.merged = .ok t) :
    look p t = some (.string s) := by
  have habove : ∀ κ ∈ l.keys, ∀ r, p = pathOf κ ++ r →
      ∃ v, l.get? κ = .ok (some v) ∧ ∀ u, look p (put v (pathOf κ) u) = some (.string s) := by
    intro κ hκ r hr
    rw [hr, look_append (pathOf_ne_nil κ)] at h
    obtain ⟨v, hv, hs⟩ := Option.bind_eq_some_iff.mp h
    refine ⟨v, get?_of_look hl (lower_of_mem_keys hκ) hv, fun u => ?_⟩
    rw [hr, look_put_append v (pathOf_ne_nil κ)]
    exact hs
  have hstep : ∀ κ ∈ l.keys, ∀ v u, l.get? κ = .ok (some v) → look p u = some (.string s) →
      look p (put v (pathOf κ) u) = some (.string s) := by
    intro κ hκ v u hv hu
    rcases path_cases p (pathOf κ) with ⟨r, hr⟩ | ⟨r, hr, he⟩ | hapart
    · obtain ⟨w, hw, hat⟩ := habove κ hκ r hr
      rw [hv] at hw
      cases hw
      exact hat u
    · -- below a text there is no setting to put
      rw [get?_of_hidden hl (lower_of_mem_keys hκ) hp hr he h] at hv
      cases hv
    · rw [look_put_of_apart v hapart]
      exact hu
  obtain ⟨κ, hκ, r, hr⟩ := hlisted
  obtain ⟨v, hv, hat⟩ := habove κ hκ r hr.symm
  obtain ⟨before, after, hsplit⟩ := List.append_of_mem hκ
  rw [merged, hsplit] at ht
  exact mergeKeys_reaches (P := fun u => look p u = some (.string s)) hv hat
    (fun κ' hκ' => hstep κ' (by simp [hsplit, hκ'])) ht

section Bound

variable {lead : Text} {env : Environment} {file : Tree} {k : Text} {r : List Text} {t : Tree}

/-- A text that variables have set is found in the end, whatever the file says. -/
theorem merged_look_bound (hk : k ≠ []) {s : Text}
    (h : look (k :: r) (({ file := file } : Layers).bind lead env).overrides = some (.string s))
    (ht : (({ file := file } : Layers).bind lead env).merged = .ok t) :
    look (k :: r) t = some (.string s) := by
  have hl := onlyTexts_bind lead env file
  have hsource := h
  rw [bind_eq] at hsource
  rcases look_putTexts_source (by simp) writes_ne_nil hsource with ⟨s', -, hmem⟩ | ⟨m, hm, -⟩
  · obtain ⟨e, -, hw⟩ := List.mem_flatMap.mp hmem
    obtain ⟨name, w, -, hvariant, he⟩ := mem_writes hw
    have hpath : pathOf w = k :: r := (congrArg Prod.fst he).symm
    obtain ⟨κ, hκ, hprefix⟩ := exists_listed (x := .string s) (fun m hm => nomatch hm)
      (lower_of_mem_keyVariants hvariant) hpath hk (hpath.symm ▸ h) []
    exact merged_look_text hl (by simp) h
      ⟨κ, mem_levelKeys_of_mem hκ [] _, hpath ▸ hprefix⟩ ht
  · cases hm

/-- A level that variables have made is a level in the end. -/
theorem merged_look_bound_level (hk : k ≠ []) {m : Tree}
    (h : look (k :: r) (({ file := file } : Layers).bind lead env).overrides = some (.map m))
    (ht : (({ file := file } : Layers).bind lead env).merged = .ok t) :
    ∃ m', look (k :: r) t = some (.map m') := by
  rw [bind_eq] at h
  obtain ⟨r', s, hr', hs⟩ := exists_text_below (by simp) writes_ne_nil h
  have htext : look (k :: r ++ r') t = some (.string s) := by
    refine merged_look_bound (r := r ++ r') hk ?_ ht
    rw [bind_eq]
    exact hs
  rw [look_append (by simp)] at htext
  obtain ⟨v, hv, hbelow⟩ := Option.bind_eq_some_iff.mp htext
  rw [lookIn_of_ne_nil hr'] at hbelow
  obtain ⟨m', hm'⟩ := exists_level_of_look hr' hbelow
  exact ⟨m', hv.trans hm'⟩

end Bound

/-- Are all keys at or above a place read from the file? -/
def FromFile (l : Layers) (p : List Text) : Prop :=
  ∀ κ ∈ l.keys, pathOf κ <+: p → l.get? κ = .ok (given? (look (pathOf κ) l.file))

theorem FromFile.put {l : Layers} {p : List Text} (h : FromFile l p) {κ : Text} (hκ : κ ∈ l.keys)
    {r : List Text} (hr : p = pathOf κ ++ r) {v : Setting} (hv : l.get? κ = .ok (some v)) (t : Tree) :
    look p (put v (pathOf κ) t) = look p l.file := by
  rw [h κ hκ ⟨r, hr.symm⟩] at hv
  have hfile := given?_eq_some (Except.ok.inj hv)
  rw [hr, look_put_append v (pathOf_ne_nil κ), look_append (pathOf_ne_nil κ), hfile]
  rfl

def IsLevel (p : List Text) (t : Tree) : Prop := ∃ m, look p t = some (.map m)

/-- Where all keys at or above a place are read from the file, there is what the file says or nothing,
or a level for keys that go on below. -/
theorem merged_look_file {l : Layers} {p : List Text} (hp : p ≠ []) (h : FromFile l p) {t : Tree}
    (ht : l.merged = .ok t) : look p t = none ∨ look p t = look p l.file ∨ IsLevel p t := by
  refine mergeKeys_preserves (P := fun u => look p u = none ∨ look p u = look p l.file ∨ IsLevel p u)
    (fun κ hκ v u hv hu => ?_) (.inl (look_nil_tree hp)) ht
  rcases path_cases p (pathOf κ) with ⟨r, hr⟩ | ⟨r, hr, he⟩ | hapart
  · exact .inr (.inl (h.put hκ hr hv u))
  · rw [he]
    exact .inr (.inr ⟨_, look_put_level v hp hr u⟩)
  · rwa [IsLevel, look_put_of_apart v hapart]

/-- If a key at or above the place has a setting, what the file says is not missed. -/
theorem merged_look_listed {l : Layers} {p : List Text} (hp : p ≠ []) (h : FromFile l p)
    (hlisted : ∃ κ ∈ l.keys, pathOf κ <+: p ∧ (given? (look (pathOf κ) l.file)).isSome) {t : Tree}
    (ht : l.merged = .ok t) : look p t = look p l.file ∨ IsLevel p t := by
  have hstep : ∀ κ ∈ l.keys, ∀ v u, l.get? κ = .ok (some v) →
      look p u = look p l.file ∨ IsLevel p u →
      look p (put v (pathOf κ) u) = look p l.file ∨ IsLevel p (put v (pathOf κ) u) := by
    intro κ hκ v u hv hu
    rcases path_cases p (pathOf κ) with ⟨r, hr⟩ | ⟨r, hr, he⟩ | hapart
    · exact .inl (h.put hκ hr hv u)
    · rw [he]
      exact .inr ⟨_, look_put_level v hp hr u⟩
    · rwa [IsLevel, look_put_of_apart v hapart]
  obtain ⟨κ, hκ, ⟨r, hr⟩, hsome⟩ := hlisted
  obtain ⟨v, hv⟩ := Option.isSome_iff_exists.mp hsome
  have hget : l.get? κ = .ok (some v) := hv ▸ h κ hκ ⟨r, hr⟩
  obtain ⟨before, after, hsplit⟩ := List.append_of_mem hκ
  rw [merged, hsplit] at ht
  exact mergeKeys_reaches (P := fun u => look p u = look p l.file ∨ IsLevel p u) hget
    (fun u => .inl (h.put hκ hr.symm hget u)) (fun κ' hκ' => hstep κ' (by simp [hsplit, hκ'])) ht

/-- A section that is listed as a key is what the overrides have of it, if they have it as a level. -/
theorem merged_look_section {l : Layers} (hl : OnlyTexts l.overrides) (hordered : Ordered l.keys)
    {k k' : Text} (hk : k.lower = k) (hpath : pathOf k = [k]) (hlisted : k ∈ l.keys) {v : Setting}
    (hv : Keyed.find? k l.overrides = some v) {t : Tree} (ht : l.merged = .ok t) :
    look [k, k'] t = look [k, k'] l.overrides := by
  obtain ⟨before, after, hsplit⟩ := List.append_of_mem hlisted
  have hget : l.get? k = .ok (some v) := get?_of_look hl hk (hpath.symm ▸ hv)
  have hat : ∀ u, look [k, k'] (put v (pathOf k) u) = look [k, k'] l.overrides := by
    intro u
    rw [hpath]
    refine (look_put_append v (q := [k]) (by simp) [k'] u).trans ?_
    rw [look_cons (by simp), hv]
    rfl
  rw [merged, hsplit] at ht
  refine mergeKeys_reaches (P := fun u => look [k, k'] u = look [k, k'] l.overrides) hget hat
    (fun κ hκ w u hw hu => ?_) ht
  -- no key of the section is listed after the section, so nothing is put below it any more
  have hafter : ¬k ++ [0x2E] <+: κ := by
    rw [hsplit] at hordered
    exact (List.pairwise_cons.mp (List.pairwise_append.mp hordered).2.1).1 κ hκ
  by_cases hκk : κ = k
  · subst hκk
    rw [hget] at hw
    cases hw
    exact hat u
  · have hnot : ¬[k] <+: pathOf κ := by
      rw [← hpath, pathOf, pathOf, split_prefix_iff]
      exact fun h => h.elim (fun h => hκk h.symm) hafter
    rw [look_put_of_apart]
    · exact hu
    · constructor
      · exact fun h => hnot ((List.prefix_append [k] [k']).trans h)
      · intro h
        rcases List.prefix_cons_iff.mp h with h | ⟨r, hr, -⟩
        · exact pathOf_ne_nil κ h
        · exact hnot ⟨r, hr.symm⟩

end Layers

end ServiceKit.Config
