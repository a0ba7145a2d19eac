import Mathlib
import ServiceKit.Proofs.Config.KeyVariants
import ServiceKit.Proofs.Keyed

/-!
What stands at the end of a path after a setting is put at the end of another one: the setting itself
and what is inside it, a level on the way to it, and everywhere else what stood there before.
-/

namespace ServiceKit.Config.Tree

/-- The setting at the end of a path that leads through maps only. -/
def look : List Text → Tree → Option Setting
  | [], t => some (.map t)
  | [k], t => Keyed.find? k t
  | k :: path, t => look path (below (Keyed.find? k t))

/-- The setting at the end of a path that starts at a setting. -/
def lookIn (v : Setting) : List Text → Option Setting
  | [] => some v
  | path => look path (below (some v))

theorem look_cons {k : Text} {path : List Text} (h : path ≠ []) (t : Tree) :
    look (k :: path) t = look path (below (Keyed.find? k t)) := by
  cases path with
  | nil => exact absurd rfl h
  | cons k' path => rfl

theorem look_nil_tree {path : List Text} (h : path ≠ []) : look path [] = none := by
  induction path with
  | nil => exact absurd rfl h
  | cons k path ih =>
      cases path with
      | nil => rfl
      | cons k' path => exact ih (by simp)

theorem exists_level_of_look {o : Option Setting} {path : List Text} (h : path ≠ []) {v : Setting}
    (hlook : look path (below o) = some v) : ∃ m, o = some (.map m) := by
  have hempty : look path [] ≠ some v := by simp [look_nil_tree h]
  cases o with
  | none => exact absurd hlook hempty
  | some x =>
      cases x with
      | map m => exact ⟨m, rfl⟩
      | _ => exact absurd hlook hempty

theorem lookIn_of_ne_nil {path : List Text} (h : path ≠ []) (v : Setting) :
    lookIn v path = look path (below (some v)) := by
  cases path with
  | nil => exact absurd rfl h
  | cons k path => rfl

theorem put_cons {k : Text} {path : List Text} (h : path ≠ []) (v : Setting) (t : Tree) :
    put v (k :: path) t = Keyed.put k (.map (put v path (below (Keyed.find? k t)))) t := by
  cases path with
  | nil => exact absurd rfl h
  | cons k' path => rfl

/-- At and below the place where a setting is put there is the setting. -/
theorem look_put_append (v : Setting) {q : List Text} (hq : q ≠ []) (r : List Text) (t : Tree) :
    look (q ++ r) (put v q t) = lookIn v r := by
  induction q generalizing t with
  | nil => exact absurd rfl hq
  | cons k q ih =>
      cases q with
      | nil =>
          cases r with
          | nil => exact Keyed.find?_put_self k v t
          | cons k' r =>
              rw [List.singleton_append, look_cons (by simp), put, Keyed.find?_put_self]
              rfl
      | cons k' q =>
          rw [List.cons_append, look_cons (by simp), put_cons (by simp), Keyed.find?_put_self]
          exact ih (by simp) _

theorem look_put_self (v : Setting) {q : List Text} (hq : q ≠ []) (t : Tree) :
    look q (put v q t) = some v := by
  have h := look_put_append v hq [] t
  rwa [List.append_nil] at h

/-- On the way to the place where a setting is put there are levels. -/
theorem look_put_level (v : Setting) {p r : List Text} (hp : p ≠ []) (hr : r ≠ []) (t : Tree) :
    look p (put v (p ++ r) t) = some (.map (put v r (below (look p t)))) := by
  induction p generalizing t with
  | nil => exact absurd rfl hp
  | cons k p ih =>
      rw [List.cons_append, put_cons (by simp [hr])]
      cases p with
      | nil => exact Keyed.find?_put_self k _ t
      | cons k' p =>
          have hne : k' :: p ≠ [] := by simp
          rw [look_cons hne, Keyed.find?_put_self, look_cons hne]
          exact ih hne _

/-- Apart from the way to the place where a setting is put nothing changes. -/
theorem look_put_of_apart (v : Setting) {p q : List Text} (h : Apart p q) (t : Tree) :
    look p (put v q t) = look p t := by
  induction p generalizing q t with
  | nil => exact absurd List.nil_prefix h.1
  | cons k p ih =>
      cases q with
      | nil => exact absurd List.nil_prefix h.2
      | cons l q =>
          -- along a common level the rests stand apart; from the first difference on nothing is touched
          by_cases hk : k = l
          · subst hk
            have hpq := h.tail
            obtain ⟨hp, hq⟩ := hpq.ne_nil
            rw [look_cons hp, put_cons hq, Keyed.find?_put_self, look_cons hp]
            exact ih hpq _
          · have hfind : Keyed.find? k (put v (l :: q) t) = Keyed.find? k t := by
              cases q with
              | nil => exact Keyed.find?_put_of_ne hk v t
              | cons l' q =>
                  rw [put_cons (by simp)]
                  exact Keyed.find?_put_of_ne hk _ t
            cases p with
            | nil => exact hfind
            | cons k' p =>
                have hp : k' :: p ≠ [] := by simp
                rw [look_cons hp, look_cons hp, hfind]

theorem eq_of_prefix_singleton {q : List Text} {a : Text} (hq : q ≠ []) (h : q <+: [a]) : q = [a] := by
  rcases List.prefix_cons_iff.mp h with h | ⟨r, rfl, hr⟩
  · exact absurd h hq
  · rw [List.prefix_nil.mp hr]

theorem eq_of_prefix_pair {q : List Text} {a b : Text} (hq : q ≠ []) (h : q <+: [a, b]) :
    q = [a] ∨ q = [a, b] := by
  rcases List.prefix_cons_iff.mp h with h | ⟨r, rfl, hr⟩
  · exact absurd h hq
  · by_cases hr0 : r = []
    · exact .inl (by rw [hr0])
    · exact .inr (by rw [eq_of_prefix_singleton hr0 hr])

theorem path_cases (p q : List Text) :
    (∃ r, p = q ++ r) ∨ (∃ r, r ≠ [] ∧ q = p ++ r) ∨ Apart p q := by
  by_cases h1 : q <+: p
  · obtain ⟨r, hr⟩ := h1
    exact .inl ⟨r, hr.symm⟩
  by_cases h2 : p <+: q
  · obtain ⟨r, rfl⟩ := h2
    refine .inr (.inl ⟨r, fun hr => h1 ?_, rfl⟩)
    rw [hr, List.append_nil]
  · exact .inr (.inr ⟨h2, h1⟩)

theorem look_put_congr (v : Setting) {p : List Text} (hp : p ≠ []) (q : List Text) {t t' : Tree}
    (h : look p t = look p t') : look p (put v q t) = look p (put v q t') := by
  by_cases hq : q = []
  · rw [hq]
    exact h
  rcases path_cases p q with ⟨r, rfl⟩ | ⟨r, hr, rfl⟩ | hapart
  · rw [look_put_append v hq, look_put_append v hq]
  · rw [look_put_level v hp hr, look_put_level v hp hr, h]
  · rw [look_put_of_apart v hapart, look_put_of_apart v hapart, h]

theorem look_append {p : List Text} (hp : p ≠ []) (r : List Text) (t : Tree) :
    look (p ++ r) t = (look p t).bind fun v => lookIn v r := by
  induction p generalizing t with
  | nil => exact absurd rfl hp
  | cons k p ih =>
      cases p with
      | cons k' p =>
          rw [List.cons_append, look_cons (by simp), look_cons (by simp)]
          exact ih (by simp) _
      | nil =>
          cases r with
          | nil => exact (Option.bind_fun_some (Keyed.find? k t)).symm
          | cons k' r =>
              rw [List.singleton_append, look_cons (by simp)]
              cases hv : Keyed.find? k t with
              | none =>
                  rw [look, hv]
                  exact look_nil_tree (by simp)
              | some v =>
                  rw [look, hv]
                  rfl

/-! ### One setting after another -/

/-- Texts put at the ends of paths, one after the other. -/
def putTexts (ws : List (List Text × Text)) (t : Tree) : Tree :=
  ws.foldl (fun t w => put (.string w.2) w.1 t) t

theorem putTexts_append (ws vs : List (List Text × Text)) (t : Tree) :
    putTexts (ws ++ vs) t = putTexts vs (putTexts ws t) :=
  List.foldl_append

theorem not_apart_self (p : List Text) : ¬Apart p p := fun h => h.1 List.prefix_rfl

/-- At the end of a path there is the text that was put there, if all other paths stand apart. -/
theorem look_putTexts {p : List Text} (hp : p ≠ []) {s : Text} {ws : List (List Text × Text)}
    (hws : ∀ w ∈ ws, w = (p, s) ∨ Apart p w.1) (t : Tree) :
    look p (putTexts ws t) = if (p, s) ∈ ws then some (.string s) else look p t := by
  induction ws generalizing t with
  | nil => rfl
  | cons w ws ih =>
      have hrest := ih (fun v hv => hws v (List.mem_cons_of_mem w hv)) (put (.string w.2) w.1 t)
      rw [show putTexts (w :: ws) t = putTexts ws (put (.string w.2) w.1 t) from rfl, hrest]
      rcases hws w List.mem_cons_self with rfl | hapart
      · rw [look_put_self _ hp]
        simp
      · have hne : (p, s) ≠ w := fun he => not_apart_self p (by rw [← he] at hapart; exact hapart)
        rw [look_put_of_apart _ hapart]
        simp [List.mem_cons, hne]

/-- Where there is a text, it was put there, and where there is a level, something was put below. -/
theorem look_putTexts_source {p : List Text} (hp : p ≠ []) {ws : List (List Text × Text)}
    (hws : ∀ w ∈ ws, w.1 ≠ []) {v : Setting} (h : look p (putTexts ws []) = some v) :
    (∃ s, v = .string s ∧ (p, s) ∈ ws) ∨
      ∃ m, v = .map m ∧ ∃ w ∈ ws, ∃ r, r ≠ [] ∧ w.1 = p ++ r := by
  -- from the last write backwards: it decides wherever it is not apart
  induction ws using List.reverseRecOn with
  | nil =>
      rw [show putTexts [] [] = ([] : Tree) from rfl, look_nil_tree hp] at h
      cases h
  | append_singleton ws w ih =>
      have hw : w.1 ≠ [] := hws w (by simp)
      rw [putTexts_append] at h
      change look p (put (.string w.2) w.1 (putTexts ws [])) = some v at h
      rcases path_cases p w.1 with ⟨r, hr⟩ | ⟨r, hr, he⟩ | hapart
      · rw [hr, look_put_append _ hw] at h
        cases r with
        | nil =>
            refine .inl ⟨w.2, (Option.some.inj h).symm, ?_⟩
            rw [hr, List.append_nil]
            simp
        | cons k r =>
            change look (k :: r) [] = some v at h
            rw [look_nil_tree (by simp)] at h
            cases h
      · rw [he, look_put_level _ hp hr] at h
        exact .inr ⟨_, (Option.some.inj h).symm, w, by simp, r, hr, he⟩
      · rw [look_put_of_apart _ hapart] at h
        rcases ih (fun x hx => hws x (by simp [hx])) h with ⟨s, hs, hmem⟩ | ⟨m, hm, x, hx, hrest⟩
        · exact .inl ⟨s, hs, by simp [hmem]⟩
        · exact .inr ⟨m, hm, x, by simp [hx], hrest⟩

/-- Below a level there is a text. -/
theorem exists_text_below {p : List Text} (hp : p ≠ []) {ws : List (List Text × Text)}
    (hws : ∀ w ∈ ws, w.1 ≠ []) {m : Tree} (h : look p (putTexts ws []) = some (.map m)) :
    ∃ r s, r ≠ [] ∧ look (p ++ r) (putTexts ws []) = some (.string s) := by
  -- from the last write backwards: it is the text, or it stands apart
  induction ws using List.reverseRecOn with
  | nil =>
      rw [show putTexts [] [] = ([] : Tree) from rfl, look_nil_tree hp] at h
      cases h
  | append_singleton ws w ih =>
      have hw : w.1 ≠ [] := hws w (by simp)
      rw [putTexts_append] at h ⊢
      change look p (put (.string w.2) w.1 (putTexts ws [])) = some (.map m) at h
      rcases path_cases p w.1 with ⟨r, hr⟩ | ⟨r, hr, he⟩ | hapart
      · rw [hr, look_put_append _ hw] at h
        cases r with
        | nil => cases h
        | cons k r =>
            change look (k :: r) [] = _ at h
            rw [look_nil_tree (by simp)] at h
            cases h
      · refine ⟨r, w.2, hr, ?_⟩
        rw [← he]
        exact look_put_self _ hw _
      · rw [look_put_of_apart _ hapart] at h
        obtain ⟨r, s, hr, hs⟩ := ih (fun x hx => hws x (by simp [hx])) h
        refine ⟨r, s, hr, ?_⟩
        change look (p ++ r) (put (.string w.2) w.1 (putTexts ws [])) = _
        rw [look_put_of_apart _ (hapart.append r)]
        exact hs

/-- A text stays as it is or becomes a level, if nothing is put at it or above it. -/
theorem look_putTexts_of_text {p : List Text} (hp : p ≠ []) {s : Text}
    {ws : List (List Text × Text)} (hws : ∀ w ∈ ws, ¬w.1 <+: p) {t : Tree}
    (h : look p t = some (.string s) ∨ ∃ m, look p t = some (.map m)) :
    look p (putTexts ws t) = some (.string s) ∨ ∃ m, look p (putTexts ws t) = some (.map m) := by
  induction ws generalizing t with
  | nil => exact h
  | cons w ws ih =>
      have hrest := fun v hv => hws v (List.mem_cons_of_mem w hv)
      apply ih hrest (t := put (.string w.2) w.1 t)
      rcases path_cases p w.1 with ⟨r, hr⟩ | ⟨r, hr, he⟩ | hapart
      · exact absurd ⟨r, hr.symm⟩ (hws w List.mem_cons_self)
      · right
        rw [he]
        exact ⟨_, look_put_level _ hp hr t⟩
      · rw [look_put_of_apart _ hapart]
        exact h

/-! ### Levels of texts -/

/-- Are all settings of a tree texts? -/
def OnlyTexts (t : Tree) : Prop :=
  ∀ p v, p ≠ [] → look p t = some v → (∃ s, v = .string s) ∨ ∃ m, v = .map m

theorem onlyTexts_putTexts {ws : List (List Text × Text)} (hws : ∀ w ∈ ws, w.1 ≠ []) :
    OnlyTexts (putTexts ws []) := by
  intro p v hp h
  rcases look_putTexts_source hp hws h with ⟨s, hs, -⟩ | ⟨m, hm, -⟩
  · exact .inl ⟨s, hs⟩
  · exact .inr ⟨m, hm⟩

theorem OnlyTexts.below {t m : Tree} (ht : OnlyTexts t) {k : Text}
    (h : Keyed.find? k t = some (.map m)) : OnlyTexts m := by
  intro p v hp hv
  refine ht (k :: p) v (by simp) ?_
  rw [look_cons hp, h]
  exact hv

/-- Among texts, a path leads through maps only. -/
theorem OnlyTexts.at?_eq_look {t : Tree} (ht : OnlyTexts t) (p : List Text) :
    at? p t = look p t := by
  induction p generalizing t with
  | nil => rfl
  | cons k p ih =>
      cases p with
      | nil => rfl
      | cons k' p =>
          have hat : at? (k :: k' :: p) t =
              ((Keyed.find? k t).bind entries?).bind (at? (k' :: p)) := rfl
          rw [hat, look_cons (by simp)]
          cases hv : Keyed.find? k t with
          | none => exact (look_nil_tree (by simp)).symm
          | some v =>
              rcases ht [k] v (by simp) hv with ⟨s, rfl⟩ | ⟨m, rfl⟩
              · exact (look_nil_tree (by simp)).symm
              · exact ih (ht.below hv)

/-! ### The order of entries -/

/-- Are the entries of all levels in order? -/
def SortedTree (t : Tree) : Prop :=
  Keyed.Sorted t ∧ ∀ p m, look p t = some (.map m) → Keyed.Sorted m

theorem sorted_put {t : Tree} (ht : Keyed.Sorted t) (v : Setting) (q : List Text) :
    Keyed.Sorted (put v q t) := by
  match q with
  | [] => exact ht
  | [k] => exact ht.put k v
  | k :: k' :: q => exact ht.put k _

theorem SortedTree.below {t : Tree} (ht : SortedTree t) (p : List Text) :
    Keyed.Sorted (below (look p t)) := by
  cases hv : look p t with
  | none => exact List.Pairwise.nil
  | some v =>
      cases v with
      | map m => exact ht.2 p m hv
      | _ => exact List.Pairwise.nil

/-- Are the entries of all levels at and below a setting in order? -/
def SortedIn (v : Setting) : Prop := ∀ r m, lookIn v r = some (.map m) → Keyed.Sorted m

theorem lookIn_plain {v : Setting} (hv : ∀ m, v ≠ .map m) {r : List Text} (hr : r ≠ []) :
    lookIn v r = none := by
  rw [lookIn_of_ne_nil hr]
  cases v with
  | map m => exact absurd rfl (hv m)
  | _ => exact look_nil_tree hr

theorem sortedIn_of_plain {v : Setting} (hv : ∀ m, v ≠ .map m) : SortedIn v := by
  intro r m h
  by_cases hr : r = []
  · rw [hr] at h
    exact absurd (Option.some.inj h) (hv m)
  · rw [lookIn_plain hv hr] at h
    cases h

theorem SortedTree.put {t : Tree} (ht : SortedTree t) {v : Setting} (hv : SortedIn v) {q : List Text}
    (hq : q ≠ []) : SortedTree (put v q t) := by
  refine ⟨sorted_put ht.1 _ q, fun p m h => ?_⟩
  by_cases hp : p = []
  · subst hp
    cases h
    exact sorted_put ht.1 _ q
  rcases path_cases p q with ⟨r, rfl⟩ | ⟨r, hr, rfl⟩ | hapart
  · rw [look_put_append _ hq] at h
    exact hv r m h
  · rw [look_put_level _ hp hr] at h
    cases h
    exact sorted_put (ht.below p) _ r
  · rw [look_put_of_apart _ hapart] at h
    exact ht.2 p m h

theorem SortedTree.putTexts {t : Tree} (ht : SortedTree t) {ws : List (List Text × Text)}
    (hws : ∀ w ∈ ws, w.1 ≠ []) : SortedTree (putTexts ws t) := by
  induction ws generalizing t with
  | nil => exact ht
  | cons w ws ih =>
      have hplain : SortedIn (.string w.2) := sortedIn_of_plain fun m hm => by cases hm
      have hw := ht.put hplain (hws w List.mem_cons_self)
      exact ih hw fun v hv => hws v (List.mem_cons_of_mem w hv)

theorem sortedTree_nil : SortedTree [] := by
  refine ⟨List.Pairwise.nil, fun p m h => ?_⟩
  by_cases hp : p = []
  · subst hp
    cases h
    exact List.Pairwise.nil
  · rw [look_nil_tree hp] at h
    cases h

theorem SortedTree.sub {t : Tree} (ht : SortedTree t) (k : Text) :
    SortedTree (Tree.below (Keyed.find? k t)) := by
  refine ⟨ht.below [k], fun p m h => ?_⟩
  by_cases hp : p = []
  · subst hp
    cases h
    exact ht.below [k]
  · exact ht.2 (k :: p) m ((look_cons hp t).trans h)

theorem SortedTree.sortedIn {t : Tree} (ht : SortedTree t) : SortedIn (.map t) := by
  intro r m h
  cases r with
  | nil =>
      cases h
      exact ht.1
  | cons k r => exact ht.2 (k :: r) m h

theorem lookIn_map_cons {entries : Tree} (hs : Keyed.Sorted entries) {e : Text × Setting} (he : e ∈ entries)
    (r : List Text) : lookIn (.map entries) (e.1 :: r) = lookIn e.2 r := by
  change look ([e.1] ++ r) entries = _
  rw [look_append (by simp)]
  change (Keyed.find? e.1 entries).bind _ = _
  rw [hs.find?_of_mem he]
  rfl

theorem SortedIn.entry {entries : Tree} (h : SortedIn (.map entries)) {e : Text × Setting}
    (he : e ∈ entries) : SortedIn e.2 := by
  intro r m hm
  exact h (e.1 :: r) m ((lookIn_map_cons (h [] entries rfl) he r).trans hm)

end ServiceKit.Config.Tree
