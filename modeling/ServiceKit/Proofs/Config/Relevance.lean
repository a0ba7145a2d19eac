import Mathlib
import ServiceKit.Proofs.Config.Fields
import ServiceKit.Proofs.Config.Merging

/-!
Which keys matter to a configuration. A key matters if it starts with a name of the upper level. In a
section that is open, which is one that neither of two loads has as a key of its own, only the names of
its fields matter. What is below the empty name is listed as if it stood above it, so a variable is
related to the configuration if its key matters without the empty parts at its start.
-/

namespace ServiceKit.Config

open Setting Text ServiceKit.Config.Tree

def Field.all : List Field :=
  [.name, .environment, .debug, .level, .format, .output, .noColor, .timestamp, .caller, .label, .trim,
    .lowercase]

def upperNames : List Text :=
  [utf8 "name", utf8 "environment", utf8 "debug", utf8 "logging", utf8 "format"]

/-- Does a field of a group go by a name, without regard to case? -/
def isWordIn (g x : Text) : Bool :=
  Field.all.any fun f => f.group?.map utf8 == some g && sameLetters x (utf8 f.word)

def isGroup (g : Text) : Bool := Field.all.any fun f => f.group?.map utf8 == some g

theorem isGroup_cases {g : Text} (h : isGroup g = true) : g = utf8 "logging" ∨ g = utf8 "format" := by
  simp only [isGroup, Field.all, Field.group?, List.any_cons, List.any_nil, Option.map_none,
    Option.map_some, Bool.or_false, Bool.or_eq_true, beq_iff_eq, Option.some.injEq, reduceCtorEq,
    false_or] at h
  grind

theorem isGroup_upper {g : Text} (h : isGroup g = true) :
    g ∈ upperNames ∧ g ≠ [] ∧ g.lower = g ∧ pathOf g = [g] := by
  rcases isGroup_cases h with rfl | rfl <;> decide

/-- Does a path matter? -/
def isRelevant (opened : Text → Bool) : List Text → Bool
  | [] => true
  | [k] => upperNames.contains k
  | k :: x :: _ => upperNames.contains k && (!opened k || isWordIn k x)

/-- Is a key of a variable related to the configuration? A key of empty parts only counts as related:
what it sets may take the place of a whole level. -/
def isRelated (opened : Text → Bool) (path : List Text) : Bool :=
  isRelevant opened (path.dropWhile List.isEmpty)

/-- The places on which trees have to agree. -/
inductive Slot (opened : Text → Bool) : List Text → Prop
  | upper {k : Text} : k ∈ upperNames → opened k = false → Slot opened [k]
  | inner {k x : Text} : k ∈ upperNames → opened k = true → isWordIn k x = true → Slot opened [k, x]

section

variable {opened : Text → Bool}

theorem Slot.ne_nil {p : List Text} (h : Slot opened p) : p ≠ [] := by
  cases h <;> simp

theorem isRelevant_append {q : List Text} (h : isRelevant opened q = false) (r : List Text) :
    isRelevant opened (q ++ r) = false := by
  match q, h with
  | [k], h =>
      have hk : upperNames.contains k = false := h
      cases r with
      | nil => exact h
      | cons x r => simp only [List.singleton_append, isRelevant, hk, Bool.false_and]
  | k :: x :: q, h => exact h

theorem Slot.apart {p q : List Text} (hp : Slot opened p) (hq : isRelevant opened q = false) :
    Apart p q := by
  have hnot : ∀ r, q ≠ p ++ r := by
    rintro r rfl
    cases hp with
    | upper hk hopen =>
        cases r with
        | nil => simp [isRelevant, hk] at hq
        | cons x r => simp [isRelevant, hk, hopen] at hq
    | inner hk hopen hx => simp [isRelevant, hk, hx] at hq
  have hne : q ≠ [] := by
    rintro rfl
    cases hq
  refine ⟨fun ⟨r, hr⟩ => hnot r hr.symm, fun h => ?_⟩
  cases hp with
  | upper hk hopen => exact hnot [] (eq_of_prefix_singleton hne h)
  | inner hk hopen hx =>
      rcases eq_of_prefix_pair hne h with rfl | rfl
      · simp [isRelevant, hk] at hq
      · exact hnot [] rfl

theorem slot_of_isRelevant {q : List Text} (hne : q ≠ []) (h : isRelevant opened q = true) :
    (∃ p r, Slot opened p ∧ q = p ++ r) ∨ ∃ k, opened k = true ∧ q = [k] := by
  match q, h with
  | [], _ => exact absurd rfl hne
  | [k], h =>
      have hk : k ∈ upperNames := by simpa [isRelevant] using h
      cases hopen : opened k with
      | true => exact .inr ⟨k, hopen, rfl⟩
      | false => exact .inl ⟨[k], [], .upper hk hopen, rfl⟩
  | k :: x :: r, h =>
      rw [isRelevant, Bool.and_eq_true_iff] at h
      have hk : k ∈ upperNames := by simpa using h.1
      cases hopen : opened k with
      | false => exact .inl ⟨[k], x :: r, .upper hk hopen, rfl⟩
      | true =>
          have hx : isWordIn k x = true := by simpa [hopen] using h.2
          exact .inl ⟨[k, x], r, .inner hk hopen hx, rfl⟩

/-! ### Trees that agree -/

def Agree (opened : Text → Bool) (t t' : Tree) : Prop := ∀ p, Slot opened p → look p t = look p t'

theorem Agree.symm {t t' : Tree} (h : Agree opened t t') : Agree opened t' t :=
  fun p hp => (h p hp).symm

theorem Agree.trans {t t' t'' : Tree} (h : Agree opened t t') (h' : Agree opened t' t'') :
    Agree opened t t'' :=
  fun p hp => (h p hp).trans (h' p hp)

theorem Agree.put {t t' : Tree} (h : Agree opened t t') (v : Setting) (q : List Text) :
    Agree opened (put v q t) (put v q t') :=
  fun p hp => look_put_congr v hp.ne_nil q (h p hp)

theorem agree_put_of_not {q : List Text} (hq : isRelevant opened q = false) (v : Setting) (t : Tree) :
    Agree opened (put v q t) t :=
  fun _ hp => look_put_of_apart v (hp.apart hq) t

/-- Agreement at the top and below the empty name, however often it is repeated. -/
def DeepAgree (opened : Text → Bool) (t t' : Tree) : Prop :=
  ∀ n p, Slot opened p → look (List.replicate n [] ++ p) t = look (List.replicate n [] ++ p) t'

theorem DeepAgree.agree {t t' : Tree} (h : DeepAgree opened t t') : Agree opened t t' := h 0

theorem DeepAgree.symm {t t' : Tree} (h : DeepAgree opened t t') : DeepAgree opened t' t :=
  fun n p hp => (h n p hp).symm

theorem DeepAgree.trans {t t' t'' : Tree} (h : DeepAgree opened t t')
    (h' : DeepAgree opened t' t'') : DeepAgree opened t t'' :=
  fun n p hp => (h n p hp).trans (h' n p hp)

theorem Slot.append_ne_nil {p : List Text} (hp : Slot opened p) (n : Nat) :
    List.replicate n [] ++ p ≠ [] := by
  simp [hp.ne_nil]

theorem DeepAgree.under {t t' : Tree} (h : DeepAgree opened t t') :
    DeepAgree opened (below (Keyed.find? [] t)) (below (Keyed.find? [] t')) := by
  intro n p hp
  have hnext := h (n + 1) p hp
  rw [List.replicate_succ, List.cons_append, look_cons (hp.append_ne_nil n),
    look_cons (hp.append_ne_nil n)] at hnext
  exact hnext

theorem DeepAgree.put {t t' : Tree} (h : DeepAgree opened t t') (v : Setting) (q : List Text) :
    DeepAgree opened (put v q t) (put v q t') :=
  fun n p hp => look_put_congr v (hp.append_ne_nil n) q (h n p hp)

theorem Slot.exists_head {p : List Text} (hp : Slot opened p) : ∃ k r, p = k :: r ∧ k ≠ [] := by
  have hupper : ([] : Text) ∉ upperNames := by decide
  cases hp with
  | @upper k hk hopen => exact ⟨k, [], rfl, fun h => hupper (h ▸ hk)⟩
  | @inner k x hk hopen hx => exact ⟨k, [x], rfl, fun h => hupper (h ▸ hk)⟩

/-- What is not related stands apart at every depth. -/
theorem Slot.apart_deep {p : List Text} (hp : Slot opened p) (n : Nat) {q : List Text}
    (hq : isRelated opened q = false) : Apart (List.replicate n [] ++ p) q := by
  -- the two paths part where only one of them goes on below the empty name
  induction n generalizing q with
  | zero =>
      cases q with
      | nil => cases hq
      | cons k q =>
          by_cases hk : k = []
          · obtain ⟨k', r, rfl, hne⟩ := hp.exists_head
            exact apart_of_ne (hk ▸ hne) r q
          · rw [isRelated, List.dropWhile_cons_of_neg (by simpa using hk)] at hq
            exact hp.apart hq
  | succ n ih =>
      cases q with
      | nil => cases hq
      | cons k q =>
          rw [List.replicate_succ, List.cons_append]
          by_cases hk : k = []
          · subst hk
            exact (ih (q := q) hq).cons []
          · exact apart_of_ne (Ne.symm hk) _ q

theorem deepAgree_put_of_not {q : List Text} (hq : isRelated opened q = false) (v : Setting)
    (t : Tree) : DeepAgree opened (put v q t) t :=
  fun n _ hp => look_put_of_apart v (hp.apart_deep n hq) t

theorem deepAgree_putTexts_of_not {ws : List (List Text × Text)}
    (hws : ∀ w ∈ ws, isRelated opened w.1 = false) (t : Tree) : DeepAgree opened (putTexts ws t) t := by
  induction ws generalizing t with
  | nil => exact fun _ _ _ => rfl
  | cons w ws ih =>
      have hrest := ih fun v hv => hws v (List.mem_cons_of_mem w hv)
      exact (hrest _).trans (deepAgree_put_of_not (hws w List.mem_cons_self) _ t)

theorem DeepAgree.putTexts {t t' : Tree} (h : DeepAgree opened t t') (ws : List (List Text × Text)) :
    DeepAgree opened (putTexts ws t) (putTexts ws t') := by
  induction ws generalizing t t' with
  | nil => exact h
  | cons w ws ih => exact ih (h.put (.string w.2) w.1)

/-- Variables that set nothing related may be left out. -/
theorem deepAgree_filter {writes : Text × Text → List (List Text × Text)} {keep : Text × Text → Bool}
    (env : Environment)
    (henv : ∀ e ∈ env, keep e = false → ∀ w ∈ writes e, isRelated opened w.1 = false) {t t' : Tree}
    (h : DeepAgree opened t t') :
    DeepAgree opened (Tree.putTexts (env.flatMap writes) t)
      (Tree.putTexts ((env.filter keep).flatMap writes) t') := by
  induction env generalizing t t' with
  | nil => exact h
  | cons e env ih =>
      have hrest := fun f hf => henv f (List.mem_cons_of_mem e hf)
      rw [List.flatMap_cons, putTexts_append]
      -- a variable that stays sets the same on both sides, and one that goes sets nothing that counts
      cases hkeep : keep e with
      | true =>
          rw [List.filter_cons_of_pos hkeep, List.flatMap_cons, putTexts_append]
          exact ih hrest (h.putTexts (writes e))
      | false =>
          rw [List.filter_cons_of_neg (by simp [hkeep])]
          exact ih hrest ((deepAgree_putTexts_of_not (henv e List.mem_cons_self hkeep) t).trans h)

/-! ### The keys that matter, as they are listed -/

def matters (opened : Text → Bool) (key : Text) : Bool := isRelevant opened (pathOf key)

theorem matters_below {key : Text} (h : matters opened key.lower = false) (s : Text) :
    matters opened (lower (key ++ 0x2E :: s)) = false := by
  rw [matters, lower_append_divider isDivider_point, pathOf, split_append_sep]
  exact isRelevant_append h _

theorem matters_nil : matters opened [] = false := rfl

theorem filter_addKey_of_not {key : Text} (h : matters opened key = false) (known : List Text) :
    (addKey known key).filter (matters opened) = known.filter (matters opened) := by
  rw [addKey]
  split
  · rfl
  · rw [List.filter_append, List.filter_singleton, h]
    exact List.append_nil _

mutual

/-- At and below a key that does not matter, nothing that matters is listed. -/
theorem filter_settingKeys_of_not {key : Text} (hne : key ≠ [])
    (h : matters opened key.lower = false) (known : List Text) : (v : Setting) →
      (settingKeys known key v).filter (matters opened) = known.filter (matters opened)
  | .map entries => by
      rw [settingKeys]
      split
      · rfl
      · rw [if_neg (by simpa using hne)]
        exact filter_levelKeys_of_not h known entries
  | .null | .bool _ | .int _ | .float _ | .string _ | .time _ | .list _ | .table _ =>
      filter_addKey_of_not h known

theorem filter_levelKeys_of_not {key : Text} (h : matters opened key.lower = false)
    (known : List Text) : (entries : List (Text × Setting)) →
      (levelKeys known (key ++ [0x2E]) entries).filter (matters opened) = known.filter (matters opened)
  | [] => rfl
  | (k, v) :: rest => by
      have hk : matters opened (lower (key ++ [0x2E] ++ k)) = false := by
        rw [List.append_assoc]
        exact matters_below h k
      rw [levelKeys, filter_levelKeys_of_not h _ rest, filter_settingKeys_of_not (by simp) hk known v]

end

theorem settingKeys_map {key : Text} (hne : key ≠ []) (known : List Text) (entries : Tree) :
    settingKeys known key (.map entries) =
      if key ∈ known then known else levelKeys known (key ++ [0x2E]) entries := by
  rw [settingKeys]
  simp [hne]

theorem mem_iff_of_filter_eq {known known' : List Text} {key : Text} (hkey : matters opened key = true)
    (h : known.filter (matters opened) = known'.filter (matters opened)) :
    key ∈ known ↔ key ∈ known' := by
  have hmem : ∀ l : List Text, key ∈ l ↔ key ∈ l.filter (matters opened) := by
    intro l
    rw [List.mem_filter]
    exact ⟨fun hl => ⟨hl, hkey⟩, fun hl => hl.1⟩
  rw [hmem known, hmem known', h]

theorem filter_addKey_congr {known known' : List Text}
    (h : known.filter (matters opened) = known'.filter (matters opened)) (key : Text) :
    (addKey known key).filter (matters opened) = (addKey known' key).filter (matters opened) := by
  cases hkey : matters opened key with
  | false => rw [filter_addKey_of_not hkey, filter_addKey_of_not hkey, h]
  | true =>
      have hmem := mem_iff_of_filter_eq hkey h
      rw [addKey, addKey]
      by_cases hk : key ∈ known
      · rw [if_pos (by simpa using hk), if_pos (by simpa using hmem.mp hk), h]
      · rw [if_neg (by simpa using hk), if_neg (by simpa using fun hk' => hk (hmem.mpr hk')),
          List.filter_append, List.filter_append, h]

mutual

/-- What is listed of the keys that matter depends on those of them that are listed before. -/
theorem filter_settingKeys_congr {known known' : List Text}
    (h : known.filter (matters opened) = known'.filter (matters opened)) {key : Text}
    (hkey : key.lower = key) : (v : Setting) → everyKey isLowerKey v = true →
      (settingKeys known key v).filter (matters opened) =
        (settingKeys known' key v).filter (matters opened)
  | .map entries, hv => by
      by_cases hne : key = []
      · subst hne
        exact filter_levelKeys_congr h (.inl rfl) entries hv
      cases hm : matters opened key with
      | false =>
          have hm' : matters opened key.lower = false := hkey.symm ▸ hm
          rw [filter_settingKeys_of_not hne hm', filter_settingKeys_of_not hne hm', h]
      | true =>
          have hmem := mem_iff_of_filter_eq hm h
          rw [settingKeys_map hne, settingKeys_map hne]
          by_cases hk : key ∈ known
          · rw [if_pos hk, if_pos (hmem.mp hk), h]
          · rw [if_neg hk, if_neg fun hk' => hk (hmem.mpr hk')]
            exact filter_levelKeys_congr h (.inr ⟨key, hkey, rfl⟩) entries hv
  | .null, _ | .bool _, _ | .int _, _ | .float _, _ | .string _, _ | .time _, _ | .list _, _
  | .table _, _ => filter_addKey_congr h _

theorem filter_levelKeys_congr {known known' : List Text}
    (h : known.filter (matters opened) = known'.filter (matters opened)) {lead : Text}
    (hlead : lead = [] ∨ ∃ key : Text, key.lower = key ∧ lead = key ++ [0x2E]) :
    (entries : List (Text × Setting)) → everyEntry isLowerKey entries = true →
      (levelKeys known lead entries).filter (matters opened) =
        (levelKeys known' lead entries).filter (matters opened)
  | [], _ => h
  | (k, v) :: rest, hentries => by
      rw [everyEntry, Bool.and_eq_true_iff, Bool.and_eq_true_iff] at hentries
      obtain ⟨⟨hk, hv⟩, hrest⟩ := hentries
      have hkey : lower (lead ++ k) = lead ++ k := by
        rcases hlead with rfl | ⟨key, hkey, rfl⟩
        · exact lower_of_isLowerKey hk
        · rw [List.append_assoc, List.singleton_append, lower_append_divider isDivider_point, hkey,
            lower_of_isLowerKey hk]
      rw [levelKeys, levelKeys]
      exact filter_levelKeys_congr (filter_settingKeys_congr h hkey v hv) hlead rest hrest

end

theorem filter_levelKeys_filter {key : Text} (hkey : key.lower = key) {keep : Text → Bool}
    {entries : Tree} (hlower : everyEntry isLowerKey entries = true)
    (hkeep : ∀ e ∈ entries, keep e.1 = false → matters opened (lower (key ++ [0x2E] ++ e.1)) = false)
    (known : List Text) :
    (levelKeys known (key ++ [0x2E]) entries).filter (matters opened) =
      (levelKeys known (key ++ [0x2E]) (entries.filter fun e => keep e.1)).filter (matters opened) := by
  induction entries generalizing known with
  | nil => rfl
  | cons e entries ih =>
      have hrest := everyEntry_iff.mpr fun f hf =>
        everyEntry_iff.mp hlower f (List.mem_cons_of_mem e hf)
      have ih := ih hrest fun f hf => hkeep f (List.mem_cons_of_mem e hf)
      cases hk : keep e.1 with
      | true =>
          rw [List.filter_cons, if_pos hk, levelKeys, levelKeys]
          exact ih _
      | false =>
          have hnone := filter_settingKeys_of_not (by simp) (hkeep e List.mem_cons_self hk) known e.2
          rw [List.filter_cons, if_neg (by simp [hk]), levelKeys, ← ih known]
          exact filter_levelKeys_congr hnone (.inr ⟨key, hkey, rfl⟩) entries hrest

/-- A level as an entry, unless it is empty. -/
def sectionOf? (k : Text) (m : Tree) : Option (Text × Setting) :=
  if m.isEmpty then none else some (k, .map m)

theorem levelKeys_sectionOf? {k : Text} (hne : k ≠ []) (known : List Text) (m : Tree) :
    levelKeys known [] (sectionOf? k m).toList = settingKeys known k (.map m) := by
  cases m with
  | nil =>
      rw [settingKeys_map hne]
      split <;> rfl
  | cons e m => rfl

/-- What matters of an entry of the upper level. -/
def pruneEntry (opened : Text → Bool) (e : Text × Setting) : Option (Text × Setting) :=
  if upperNames.contains e.1 then
    if opened e.1 then sectionOf? e.1 ((below (some e.2)).filter fun x => isWordIn e.1 x.1)
    else some e
  else none

theorem pathOf_of_isPart {k : Text} (h : isPart k = true) : pathOf k = [k] :=
  split_eq_singleton (by simpa [isPart] using h)

/-- An open section counts for as much as the words of its fields. -/
theorem filter_sectionKeys {k : Text} (hk : isGroup k = true) (hopen : opened k = true) {m : Tree}
    (hlower : everyEntry isLowerKey m = true) (hpart : everyEntry isPart m = true) (known : List Text) :
    (settingKeys known k (.map m)).filter (matters opened) =
      (settingKeys known k (.map (m.filter fun x => isWordIn k x.1))).filter (matters opened) := by
  obtain ⟨-, hne, hkLower, hkPath⟩ := isGroup_upper hk
  have hkeep : ∀ e ∈ m, isWordIn k e.1 = false →
      matters opened (lower (k ++ [0x2E] ++ e.1)) = false := by
    intro e he hword
    have heLower := lower_of_isLowerKey (everyEntry_iff.mp hlower e he).1
    have hePath := pathOf_of_isPart (everyEntry_iff.mp hpart e he).1
    rw [matters, List.append_assoc, List.singleton_append, lower_append_divider isDivider_point,
      hkLower, heLower, pathOf, split_append_sep]
    change isRelevant opened (pathOf k ++ pathOf e.1) = false
    rw [hkPath, hePath]
    simp [isRelevant, hopen, hword]
  rw [settingKeys_map hne, settingKeys_map hne]
  split
  · rfl
  · exact filter_levelKeys_filter hkLower hlower hkeep known

theorem filter_settingKeys_prune (hopened : ∀ k, opened k = true → isGroup k = true)
    {e : Text × Setting} (hne : e.1 ≠ []) (hlower : everyEntry isLowerKey [e] = true)
    (hpart : everyEntry isPart [e] = true) (hmap : opened e.1 = true → ∃ m, e.2 = .map m)
    (known : List Text) :
    (settingKeys known e.1 e.2).filter (matters opened) =
      (levelKeys known [] (pruneEntry opened e).toList).filter (matters opened) := by
  obtain ⟨k, v⟩ := e
  simp only [everyEntry, Bool.and_true, Bool.and_eq_true_iff] at hlower hpart
  unfold pruneEntry
  simp only at hmap ⊢
  split
  · split
    · rename_i hopen
      obtain ⟨m, rfl⟩ := hmap hopen
      rw [filter_sectionKeys (hopened k hopen) hopen hlower.2 hpart.2, levelKeys_sectionOf? hne]
      rfl
    · rfl
  · rename_i hupper
    refine filter_settingKeys_of_not hne ?_ known v
    rw [lower_of_isLowerKey hlower.1, matters, pathOf_of_isPart hpart.1]
    simpa [isRelevant] using hupper

theorem levelKeys_append (known : List Text) (lead : Text) (es es' : List (Text × Setting)) :
    levelKeys known lead (es ++ es') = levelKeys (levelKeys known lead es) lead es' := by
  induction es generalizing known with
  | nil => rfl
  | cons e es ih =>
      rw [List.cons_append, levelKeys, levelKeys]
      exact ih _

theorem filter_levelKeys_prune (hopened : ∀ k, opened k = true → isGroup k = true) {t : Tree}
    (hne : ∀ e ∈ t, e.1 ≠ []) (hlower : everyEntry isLowerKey t = true)
    (hpart : everyEntry isPart t = true)
    (hmap : ∀ e ∈ t, opened e.1 = true → ∃ m, e.2 = .map m) (known : List Text) :
    (levelKeys known [] t).filter (matters opened) =
      (levelKeys known [] (t.filterMap (pruneEntry opened))).filter (matters opened) := by
  induction t generalizing known with
  | nil => rfl
  | cons e t ih =>
      rw [← List.singleton_append, List.filterMap_append, levelKeys_append, levelKeys_append]
      have hone : ∀ f, everyEntry f (e :: t) = true →
          everyEntry f [e] = true ∧ everyEntry f t = true := by
        intro f h
        rw [everyEntry_iff, List.forall_mem_cons] at h
        exact ⟨everyEntry_iff.mpr (by simpa using h.1), everyEntry_iff.mpr h.2⟩
      have hstep := filter_settingKeys_prune hopened (hne e List.mem_cons_self) (hone _ hlower).1
        (hone _ hpart).1 (hmap e List.mem_cons_self) known
      have htoList : [e].filterMap (pruneEntry opened) = (pruneEntry opened e).toList := by
        cases h : pruneEntry opened e <;> simp [h]
      rw [htoList, ← ih (fun f hf => hne f (List.mem_cons_of_mem e hf)) (hone _ hlower).2 (hone _ hpart).2
        fun f hf => hmap f (List.mem_cons_of_mem e hf)]
      exact filter_levelKeys_congr hstep (.inl rfl) t (hone _ hlower).2

theorem fst_of_pruneEntry {e e' : Text × Setting} (h : pruneEntry opened e = some e') :
    e'.1 = e.1 := by
  unfold pruneEntry sectionOf? at h
  split at h
  · split at h
    · split at h <;> cases h
      rfl
    · cases h
      rfl
  · cases h

theorem sorted_prune {t : Tree} (ht : Keyed.Sorted t) :
    Keyed.Sorted (t.filterMap (pruneEntry opened)) := by
  refine List.Pairwise.filterMap _ (fun e f hlt e' he f' hf => ?_) ht
  rw [fst_of_pruneEntry he, fst_of_pruneEntry hf]
  exact hlt

theorem find?_prune {t : Tree} (ht : Keyed.Sorted t) (k : Text) :
    Keyed.find? k (t.filterMap (pruneEntry opened)) =
      (Keyed.find? k t).bind fun v => (pruneEntry opened (k, v)).map Prod.snd := by
  induction t with
  | nil => rfl
  | cons e t ih =>
      have ih := ih (List.pairwise_cons.mp ht).2
      rw [List.filterMap_cons]
      by_cases hk : k = e.1
      · subst hk
        rw [Keyed.find?_cons_self, Option.bind_some]
        cases he : pruneEntry opened e with
        | none =>
            simp only
            rw [ih, ht.find?_tail]
            rfl
        | some e' =>
            simp only
            rw [← fst_of_pruneEntry he, Keyed.find?_cons_self]
            rfl
      · rw [Keyed.find?_cons_of_ne hk, ← ih]
        cases he : pruneEntry opened e with
        | none => rfl
        | some e' => exact Keyed.find?_cons_of_ne (fst_of_pruneEntry he ▸ hk) _

theorem prune_eq {t t' : Tree} (ht : SortedTree t) (ht' : SortedTree t') (h : Agree opened t t') :
    t.filterMap (pruneEntry opened) = t'.filterMap (pruneEntry opened) := by
  -- both are in order, so it is enough that the same is found in them for every key
  refine Keyed.Sorted.ext (sorted_prune ht.1) (sorted_prune ht'.1) fun k => ?_
  rw [find?_prune ht.1, find?_prune ht'.1]
  cases hupper : upperNames.contains k with
  | false =>
      have hnone : ∀ v, (pruneEntry opened (k, v)).map Prod.snd = none := by
        intro v
        rw [pruneEntry, if_neg (by rw [hupper]; exact Bool.false_ne_true)]
        rfl
      simp only [hnone, Option.bind_fun_none]
  | true =>
      have hk : k ∈ upperNames := by simpa using hupper
      cases hopen : opened k with
      | false =>
          have hfind : Keyed.find? k t = Keyed.find? k t' := h [k] (.upper hk hopen)
          rw [hfind]
      | true =>
          -- in an open section only the words of fields count, and there the two agree
          have hwords : (below (Keyed.find? k t)).filter (fun x => isWordIn k x.1) =
              (below (Keyed.find? k t')).filter fun x => isWordIn k x.1 := by
            refine Keyed.Sorted.filter_ext (ht.below [k]) (ht'.below [k]) fun x hx => ?_
            exact h [k, x] (.inner hk hopen hx)
          have hin : ∀ u : Tree, ((Keyed.find? k u).bind fun v =>
              (pruneEntry opened (k, v)).map Prod.snd) =
                (sectionOf? k ((below (Keyed.find? k u)).filter fun x => isWordIn k x.1)).map
                  Prod.snd := by
            intro u
            cases hv : Keyed.find? k u with
            | none => rfl
            | some v => simp only [pruneEntry, hupper, hopen, if_true, Option.bind_some]
          rw [hin t, hin t', hwords]

/-! ### Levels below the empty name -/

/-- Overrides in which no open section is a text, at the top or below the empty name. -/
structure OpenTexts (opened : Text → Bool) (t : Tree) : Prop where
  texts : OnlyTexts t
  sorted : SortedTree t
  lower : everyEntry isLowerKey t = true
  parts : everyEntry isPart t = true
  levels : ∀ n k s, opened k = true → look (List.replicate n [] ++ [k]) t ≠ some (.string s)

theorem openTexts_nil : OpenTexts opened [] where
  texts := by
    intro p v hp h
    rw [look_nil_tree hp] at h
    cases h
  sorted := sortedTree_nil
  lower := rfl
  parts := rfl
  levels := by
    intro n k s _ h
    rw [look_nil_tree (by simp)] at h
    cases h

theorem OpenTexts.under {t : Tree} (ht : OpenTexts opened t) :
    OpenTexts opened (below (Keyed.find? [] t)) := by
  cases hv : Keyed.find? [] t with
  | none => exact openTexts_nil
  | some v =>
      rcases ht.texts [[]] v (by simp) hv with ⟨s, rfl⟩ | ⟨m, rfl⟩
      · exact openTexts_nil
      · have hlook : ∀ p, p ≠ [] → look ([] :: p) t = look p m := by
          intro p hp
          rw [look_cons hp, hv]
          rfl
        have hsorted := ht.sorted.sub []
        rw [hv] at hsorted
        refine ⟨ht.texts.below hv, hsorted, everyKey_of_find? ht.lower hv,
          everyKey_of_find? ht.parts hv, ?_⟩
        intro n k s hopen h
        refine ht.levels (n + 1) k s hopen ?_
        rw [List.replicate_succ, List.cons_append, hlook _ (by simp)]
        exact h

theorem OpenTexts.map_of_mem {t : Tree} (ht : OpenTexts opened t) {e : Text × Setting} (he : e ∈ t)
    (hopen : opened e.1 = true) : ∃ m, e.2 = .map m := by
  have hfind : look [e.1] t = some e.2 := ht.sorted.1.find?_of_mem he
  rcases ht.texts [e.1] e.2 (by simp) hfind with ⟨s, hs⟩ | hm
  · exact absurd (hs ▸ hfind) (ht.levels 0 e.1 s hopen)
  · exact hm

/-- The level below the empty name is listed before all others. -/
theorem filter_levelKeys_under {t : Tree} (ht : Keyed.Sorted t)
    (hlower : everyEntry isLowerKey t = true) (known : List Text) :
    (levelKeys known [] t).filter (matters opened) =
      (levelKeys (levelKeys known [] (below (Keyed.find? [] t))) []
        (t.filter fun e => !e.1.isEmpty)).filter (matters opened) := by
  cases t with
  | nil => rfl
  | cons e t =>
      obtain ⟨k, v⟩ := e
      have hnamed : t.filter (fun e => !e.1.isEmpty) = t := by
        refine List.filter_eq_self.mpr fun f hf => ?_
        simpa using Text.ne_nil_of_lt ((List.pairwise_cons.mp ht).1 f hf)
      have hrest := everyEntry_iff.mpr fun f hf =>
        everyEntry_iff.mp hlower f (List.mem_cons_of_mem (k, v) hf)
      by_cases hk : k = []
      · subst hk
        rw [List.filter_cons_of_neg (by simp), hnamed, levelKeys, Keyed.find?_cons_self ([], v) t]
        refine filter_levelKeys_congr ?_ (.inl rfl) t hrest
        -- a plain value with no name at all is listed as the empty key, which does not matter
        cases v with
        | map m => rfl
        | _ => exact filter_addKey_of_not matters_nil known
      · rw [List.filter_cons_of_pos (by simpa using hk), hnamed]
        have hnone : Keyed.find? [] ((k, v) :: t) = none := by
          refine Keyed.find?_eq_none.mpr fun f hf => ?_
          rcases List.mem_cons.mp hf with rfl | hf
          · exact hk
          · exact Text.ne_nil_of_lt ((List.pairwise_cons.mp ht).1 f hf)
        rw [hnone]
        rfl

theorem sizeOf_below_lt {k : Text} {t : Tree} (h : below (Keyed.find? k t) ≠ []) :
    sizeOf (below (Keyed.find? k t)) < sizeOf t := by
  cases hv : Keyed.find? k t with
  | none =>
      rw [hv] at h
      exact absurd rfl h
  | some v =>
      rw [hv] at h
      cases v with
      | map m =>
          have hlt := List.sizeOf_lt_of_mem (Keyed.mem_of_find? hv)
          simp only [Prod.mk.sizeOf_spec, Setting.map.sizeOf_spec] at hlt
          change sizeOf m < sizeOf t
          omega
      | _ => exact absurd rfl h

theorem sizeOf_below_le (k : Text) (t : Tree) : sizeOf (below (Keyed.find? k t)) ≤ sizeOf t := by
  by_cases h : below (Keyed.find? k t) = []
  · rw [h]
    cases t with
    | nil => exact Nat.le_refl _
    | cons e t =>
        rw [List.cons.sizeOf_spec, List.nil.sizeOf_spec]
        omega
  · exact Nat.le_of_lt (sizeOf_below_lt h)

theorem everyEntry_filter {f : Text → Bool} {t : Tree} (h : everyEntry f t = true)
    (keep : Text × Setting → Bool) : everyEntry f (t.filter keep) = true :=
  everyEntry_iff.mpr fun e he => everyEntry_iff.mp h e (List.mem_of_mem_filter he)

theorem OpenTexts.filter_levelKeys_named (hopened : ∀ k, opened k = true → isGroup k = true) {t : Tree}
    (ht : OpenTexts opened t) (known : List Text) :
    (levelKeys known [] (t.filter fun e => !e.1.isEmpty)).filter (matters opened) =
      (levelKeys known [] (t.filterMap (pruneEntry opened))).filter (matters opened) := by
  have hprune : (t.filter fun e => !e.1.isEmpty).filterMap (pruneEntry opened) =
      t.filterMap (pruneEntry opened) := by
    rw [List.filterMap_filter]
    congr 1
    funext e
    obtain ⟨k, v⟩ := e
    cases k <;> rfl
  rw [filter_levelKeys_prune hopened _ (everyEntry_filter ht.lower _) (everyEntry_filter ht.parts _)
    fun e he => ht.map_of_mem (List.mem_of_mem_filter he), hprune]
  intro e he
  simpa using List.of_mem_filter he

/-- What is listed of the keys that matter is the same for overrides that agree. -/
theorem filter_levelKeys_agree (hopened : ∀ k, opened k = true → isGroup k = true) (t t' : Tree)
    (ht : OpenTexts opened t) (ht' : OpenTexts opened t') (h : DeepAgree opened t t')
    {known known' : List Text} (hknown : known.filter (matters opened) = known'.filter (matters opened)) :
    (levelKeys known [] t).filter (matters opened) =
      (levelKeys known' [] t').filter (matters opened) := by
  -- by recursion on the levels below the empty name, whose keys are listed before all others
  have hunder : (levelKeys known [] (below (Keyed.find? [] t))).filter (matters opened) =
      (levelKeys known' [] (below (Keyed.find? [] t'))).filter (matters opened) := by
    by_cases hnil : below (Keyed.find? [] t) = [] ∧ below (Keyed.find? [] t') = []
    · rw [hnil.1, hnil.2]
      exact hknown
    · exact filter_levelKeys_agree hopened _ _ ht.under ht'.under h.under hknown
  rw [filter_levelKeys_under ht.sorted.1 ht.lower, filter_levelKeys_under ht'.sorted.1 ht'.lower,
    ht'.filter_levelKeys_named hopened, ← prune_eq ht.sorted ht'.sorted h.agree,
    ← ht.filter_levelKeys_named hopened]
  exact filter_levelKeys_congr hunder (.inl rfl) _ (everyEntry_filter ht.lower _)
termination_by sizeOf t + sizeOf t'
decreasing_by
  have hle := sizeOf_below_le [] t
  have hle' := sizeOf_below_le [] t'
  rcases not_and_or.mp hnil with hne | hne
  · have := sizeOf_below_lt hne
    omega
  · have := sizeOf_below_lt hne
    omega

end

end ServiceKit.Config
