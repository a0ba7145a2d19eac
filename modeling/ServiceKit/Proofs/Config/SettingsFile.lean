import Mathlib
import ServiceKit.Config.SettingsFile
import ServiceKit.Proofs.Config.Keys

/-!
The keys of a settings file in lower case. If no two keys of a level are the same without regard to
case, nothing is lost: what is found for a key is what the file has for it, however it is spelled
there.
-/

namespace ServiceKit

namespace Config.SettingsFile

open Setting Text

/-- Are no two keys of a level the same without regard to case? -/
def Distinct (entries : Tree) : Prop := (entries.map fun e => e.1.lower).Nodup

instance (entries : Tree) : Decidable (Distinct entries) :=
  inferInstanceAs (Decidable (List.Nodup _))

/-- What a level has for a key in lower case, however the key is spelled there. -/
def spelled? (k : Text) (entries : Tree) : Option Setting :=
  (List.find? (fun e => e.1.lower == k) entries).map Prod.snd

theorem spelled?_eq_some {entries : Tree} (hd : Distinct entries) {k : Text} {v : Setting} :
    spelled? k entries = some v ↔ ∃ e ∈ entries, e.1.lower = k ∧ e.2 = v := by
  induction entries with
  | nil => simp [spelled?]
  | cons e entries ih =>
      rw [Distinct, List.map_cons, List.nodup_cons] at hd
      rw [spelled?, List.find?_cons]
      by_cases hk : e.1.lower = k
      · have hrest : ¬∃ f ∈ entries, f.1.lower = k ∧ f.2 = v := by
          rintro ⟨f, hf, hfk, -⟩
          exact hd.1 (List.mem_map.mpr ⟨f, hf, hfk.trans hk.symm⟩)
        simp [hk, hrest]
      · have hne : (e.1.lower == k) = false := beq_eq_false_iff_ne.mpr hk
        simp only [hne, List.exists_mem_cons_iff, hk, false_and, false_or]
        exact ih hd.2

section

variable (order : MapOrder)

/-- The entries of a level with their keys in lower case, in the order in which they are put. -/
theorem lowerEntries_perm (entries : Tree) : ∃ es : List (Text × Setting),
    lowerEntries order entries = Keyed.putAll [] es ∧
      es.Perm (entries.map fun e => (e.1.lower, e.2)) :=
  ⟨_, rfl, ((List.filter_append_perm _ _).trans (order.arrange_perm entries)).map _⟩

theorem find?_lowerEntries {entries : Tree} (hd : Distinct entries) (k : Text) :
    Keyed.find? k (lowerEntries order entries) = spelled? k entries := by
  obtain ⟨es, he, hperm⟩ := lowerEntries_perm order entries
  have hnodup : (es.map Prod.fst).Nodup := by
    rw [(hperm.map Prod.fst).nodup_iff, List.map_map]
    exact hd
  rw [he]
  cases hs : spelled? k entries with
  | some v =>
      obtain ⟨e, hmem, rfl, rfl⟩ := (spelled?_eq_some hd).mp hs
      exact Keyed.find?_putAll_of_mem [] hnodup
        (hperm.mem_iff.mpr (List.mem_map.mpr ⟨e, hmem, rfl⟩))
  | none =>
      refine Keyed.find?_putAll [] fun f hf hk => ?_
      obtain ⟨e, hmem, rfl⟩ := List.mem_map.mp (hperm.mem_iff.mp hf)
      have hsome := (spelled?_eq_some hd).mpr ⟨e, hmem, hk, rfl⟩
      rw [hs] at hsome
      cases hsome

theorem lowerValues_eq (entries : Tree) :
    lowerValues order entries = entries.map fun e => (e.1, lowerKeys order e.2) := by
  induction entries with
  | nil => rfl
  | cons e entries ih => rw [lowerValues, ih]; rfl

theorem spelled?_lowerValues (k : Text) (entries : Tree) :
    spelled? k (lowerValues order entries) = (spelled? k entries).map (lowerKeys order) := by
  rw [spelled?, spelled?, lowerValues_eq, List.find?_map, Option.map_map, Option.map_map]
  rfl

theorem distinct_lowerValues {entries : Tree} (hd : Distinct entries) :
    Distinct (lowerValues order entries) := by
  rw [Distinct, lowerValues_eq, List.map_map]
  exact hd

theorem find?_lowered {entries : Tree} (hd : Distinct entries) (k : Text) :
    Keyed.find? k (lowerEntries order (lowerValues order entries)) =
      (spelled? k entries).map (lowerKeys order) := by
  rw [find?_lowerEntries order (distinct_lowerValues order hd), spelled?_lowerValues]

end

section

variable {order : MapOrder}

theorem mem_lowerEntries {entries : Tree} {e : Text × Setting} (h : e ∈ lowerEntries order entries) :
    ∃ k, (k, e.2) ∈ entries ∧ e.1 = k.lower := by
  obtain ⟨es, he, hperm⟩ := lowerEntries_perm order entries
  rw [he] at h
  rcases Keyed.mem_putAll h with h | h
  · cases h
  · obtain ⟨f, hf, rfl⟩ := List.mem_map.mp (hperm.mem_iff.mp h)
    exact ⟨f.1, hf, rfl⟩

def isAsciiKey (k : Text) : Bool := k.all (· < 0x80) && !k.contains 0x2E

theorem isPlainKey_lower {k : Text} (h : isAsciiKey k = true) : Tree.isPlainKey k.lower = true := by
  rw [isAsciiKey, Bool.and_eq_true_iff] at h
  obtain ⟨hascii, hpoint⟩ := h
  have hb : ∀ b ∈ k, b < 0x80 := by simpa using hascii
  have hp : 0x2E ∉ k := by simpa using hpoint
  have hl := not_mem_lower hp
  rw [Tree.isPlainKey, isPlainLower_lower hb]
  simpa using hl

mutual

theorem everyKey_lowerKeys {f g : Text → Bool} (hfg : ∀ k, f k = true → g k.lower = true) :
    (v : Setting) → everyKey f v = true → everyKey g (lowerKeys order v) = true
  | .map entries, h => by
      rw [lowerKeys, everyKey, everyEntry_iff]
      intro e he
      obtain ⟨k, hk, hek⟩ := mem_lowerEntries he
      obtain ⟨hk, hv⟩ := everyKey_lowerValues hfg entries h (k, e.2) hk
      exact ⟨hek ▸ hfg k hk, hv⟩
  | .list items, h => by
      rw [lowerKeys, everyKey, everyItem_iff]
      exact everyKey_lowerItems hfg items h
  | .null, _ | .bool _, _ | .int _, _ | .float _, _ | .string _, _ | .time _, _ => rfl

theorem everyKey_lowerValues {f g : Text → Bool} (hfg : ∀ k, f k = true → g k.lower = true) :
    (entries : List (Text × Setting)) → everyEntry f entries = true →
      ∀ e ∈ lowerValues order entries, f e.1 = true ∧ everyKey g e.2 = true
  | [], _, _, he => by cases he
  | (k, v) :: rest, h, e, he => by
      rw [everyEntry, Bool.and_eq_true_iff, Bool.and_eq_true_iff] at h
      rcases List.mem_cons.mp he with rfl | he
      · exact ⟨h.1.1, everyKey_lowerKeys hfg v h.1.2⟩
      · exact everyKey_lowerValues hfg rest h.2 e he

theorem everyKey_lowerItems {f g : Text → Bool} (hfg : ∀ k, f k = true → g k.lower = true) :
    (items : List Setting) → everyItem f items = true →
      ∀ v ∈ lowerItems order items, everyKey g v = true
  | [], _, _, hv => by cases hv
  | x :: rest, h, v, hv => by
      rw [everyItem, Bool.and_eq_true_iff] at h
      rcases List.mem_cons.mp hv with rfl | hv
      · exact everyKey_lowerKeys hfg x h.1
      · exact everyKey_lowerItems hfg rest h.2 v hv

end

/-- A test that the keys pass in lower case is passed by all keys of a file. -/
theorem everyEntry_lowered {f g : Text → Bool} (hfg : ∀ k, f k = true → g k.lower = true)
    {entries : Tree} (h : everyEntry f entries = true) :
    everyEntry g (lowerEntries order (lowerValues order entries)) = true :=
  everyKey_lowerKeys hfg (.map entries) h

theorem mem_lowerPairs {entries : List (Setting × Setting)} {e : Text × Setting}
    (h : e ∈ lowerPairs order entries) : ∃ f ∈ entries, e.2 = lowerKeys order f.2 := by
  induction entries with
  | nil => cases h
  | cons f entries ih =>
      rcases List.mem_cons.mp h with rfl | h
      · exact ⟨f, List.mem_cons_self, rfl⟩
      · obtain ⟨f', hf', he⟩ := ih h
        exact ⟨f', List.mem_cons_of_mem f hf', he⟩

theorem everyEntry_isLowerKey {entries : Tree} (h : ∀ e ∈ entries, everyKey Tree.isLowerKey e.2 = true) :
    everyEntry Tree.isLowerKey (lowerEntries order entries) = true := by
  rw [everyEntry_iff]
  intro e he
  obtain ⟨k, hk, hek⟩ := mem_lowerEntries he
  refine ⟨?_, h (k, e.2) hk⟩
  rw [Tree.isLowerKey, hek, lower_lower, beq_self_eq_true]

mutual

theorem everyKey_isLowerKey : (v : Setting) → everyKey Tree.isLowerKey (lowerKeys order v) = true
  | .map entries => everyEntry_isLowerKey (everyKey_lowerValue entries)
  | .table entries => everyEntry_isLowerKey (everyKey_lowerPair entries)
  | .list items => everyItem_iff.mpr (everyKey_lowerItem items)
  | .null | .bool _ | .int _ | .float _ | .string _ | .time _ => rfl

theorem everyKey_lowerValue : (entries : List (Text × Setting)) →
    ∀ e ∈ lowerValues order entries, everyKey Tree.isLowerKey e.2 = true
  | [], _, he => by cases he
  | (_, v) :: rest, e, he => by
      rcases List.mem_cons.mp he with rfl | he
      · exact everyKey_isLowerKey v
      · exact everyKey_lowerValue rest e he

theorem everyKey_lowerPair : (entries : List (Setting × Setting)) →
    ∀ e ∈ lowerPairs order entries, everyKey Tree.isLowerKey e.2 = true
  | [], _, he => by cases he
  | (_, v) :: rest, e, he => by
      rcases List.mem_cons.mp he with rfl | he
      · exact everyKey_isLowerKey v
      · exact everyKey_lowerPair rest e he

theorem everyKey_lowerItem : (items : List Setting) →
    ∀ v ∈ lowerItems order items, everyKey Tree.isLowerKey v = true
  | [], _, hv => by cases hv
  | x :: rest, v, hv => by
      rcases List.mem_cons.mp hv with rfl | hv
      · exact everyKey_isLowerKey x
      · exact everyKey_lowerItem rest v hv

end

/-- Whatever the keys are, they come out in lower case. -/
theorem everyEntry_isLowerKey_lowered (entries : Tree) :
    everyEntry Tree.isLowerKey (lowerEntries order (lowerValues order entries)) = true :=
  everyKey_isLowerKey (.map entries)

/-! ### Levels in order -/

/-- A level of a file is in order, and what is in it has its keys in lower case. -/
theorem level_lowerKeys {v : Setting} {entries : Tree} (h : lowerKeys order v = .map entries) :
    Keyed.Sorted entries ∧ ∀ e ∈ entries, ∃ v', e.2 = lowerKeys order v' := by
  cases v with
  | map es =>
      cases h
      refine ⟨Keyed.sorted_ofList _, fun e he => ?_⟩
      obtain ⟨k, hk, -⟩ := mem_lowerEntries he
      rw [lowerValues_eq] at hk
      obtain ⟨f, -, hf⟩ := List.mem_map.mp hk
      exact ⟨f.2, (congrArg Prod.snd hf).symm⟩
  | table es =>
      cases h
      refine ⟨Keyed.sorted_ofList _, fun e he => ?_⟩
      obtain ⟨k, hk, -⟩ := mem_lowerEntries he
      obtain ⟨f, -, hf⟩ := mem_lowerPairs hk
      exact ⟨f.2, hf⟩
  | _ => cases h

theorem sortedIn_lowerKeys (v : Setting) : Tree.SortedIn (lowerKeys order v) := by
  intro r m h
  induction r generalizing v with
  | nil => exact (level_lowerKeys (Option.some.inj h)).1
  | cons k r ih =>
      obtain ⟨entries, hentries⟩ := Tree.exists_level_of_look (by simp) h
      have hlevel : lowerKeys order v = .map entries := Option.some.inj hentries
      rw [hlevel] at h
      change Tree.look ([k] ++ r) entries = _ at h
      rw [Tree.look_append (by simp)] at h
      obtain ⟨x, hx, hrest⟩ := Option.bind_eq_some_iff.mp h
      obtain ⟨v', hv'⟩ := (level_lowerKeys hlevel).2 _ (Keyed.mem_of_find? hx)
      exact ih v' (hv' ▸ hrest)

theorem sortedTree_lowered (entries : Tree) :
    Tree.SortedTree (lowerEntries order (lowerValues order entries)) := by
  have hsorted : Tree.SortedIn (lowerKeys order (.map entries)) := sortedIn_lowerKeys _
  refine ⟨hsorted [] _ rfl, fun p m h => hsorted p m ?_⟩
  cases p with
  | nil => exact h
  | cons k p => exact h

end

/-! ### Files that are read alike in every order -/

mutual

/-- Are no two keys of any level the same without regard to case? The keys of a table are no texts. -/
def everyDistinct : Setting → Bool
  | .map entries => decide (Distinct entries) && distinctEntries entries
  | .table _ => false
  | .list items => distinctItems items
  | _ => true

def distinctEntries : List (Text × Setting) → Bool
  | [] => true
  | (_, v) :: rest => everyDistinct v && distinctEntries rest

def distinctItems : List Setting → Bool
  | [] => true
  | v :: rest => everyDistinct v && distinctItems rest

end

section

variable (order order' : MapOrder)

theorem lowerEntries_congr {entries : Tree} (hd : Distinct entries) :
    lowerEntries order entries = lowerEntries order' entries := by
  refine (Keyed.sorted_ofList _).ext (Keyed.sorted_ofList _) fun k => ?_
  exact (find?_lowerEntries order hd k).trans (find?_lowerEntries order' hd k).symm

mutual

theorem lowerKeys_congr : (v : Setting) → everyDistinct v = true →
    lowerKeys order v = lowerKeys order' v
  | .map entries, h => by
      rw [everyDistinct, Bool.and_eq_true_iff, decide_eq_true_eq] at h
      rw [lowerKeys, lowerKeys, lowerValues_congr entries h.2,
        lowerEntries_congr order order' (distinct_lowerValues order' h.1)]
  | .list items, h => by rw [lowerKeys, lowerKeys, lowerItems_congr items h]
  | .null, _ | .bool _, _ | .int _, _ | .float _, _ | .string _, _ | .time _, _ => rfl

theorem lowerValues_congr : (entries : List (Text × Setting)) → distinctEntries entries = true →
    lowerValues order entries = lowerValues order' entries
  | [], _ => rfl
  | (k, v) :: rest, h => by
      rw [distinctEntries, Bool.and_eq_true_iff] at h
      rw [lowerValues, lowerValues, lowerKeys_congr v h.1, lowerValues_congr rest h.2]

theorem lowerItems_congr : (items : List Setting) → distinctItems items = true →
    lowerItems order items = lowerItems order' items
  | [], _ => rfl
  | v :: rest, h => by
      rw [distinctItems, Bool.and_eq_true_iff] at h
      rw [lowerItems, lowerItems, lowerKeys_congr v h.1, lowerItems_congr rest h.2]

end

end

/-- Settings that come out alike in every order: keys without points, none of the upper ones empty, and no
two of a level the same without regard to case. -/
structure IsSteady (entries : Tree) : Prop where
  parts : everyEntry Tree.isPart entries = true
  named : ∀ e ∈ entries, e.1 ≠ []
  distinct : everyDistinct (.map entries) = true

instance (entries : Tree) : Decidable (IsSteady entries) :=
  decidable_of_iff (everyEntry Tree.isPart entries = true ∧ (∀ e ∈ entries, e.1 ≠ []) ∧
      everyDistinct (.map entries) = true)
    ⟨fun h => ⟨h.1, h.2.1, h.2.2⟩, fun h => ⟨h.parts, h.named, h.distinct⟩⟩

theorem IsSteady.lowered_congr {entries : Tree} (h : IsSteady entries) (order order' : MapOrder) :
    lowerEntries order (lowerValues order entries) = lowerEntries order' (lowerValues order' entries) :=
  Setting.map.inj (lowerKeys_congr order order' (.map entries) h.distinct)

theorem IsSteady.find?_nil {entries : Tree} (h : IsSteady entries) (order : MapOrder) :
    Keyed.find? [] (lowerEntries order (lowerValues order entries)) = none := by
  refine Keyed.find?_eq_none.mpr fun e he hempty => ?_
  obtain ⟨k, hk, hek⟩ := mem_lowerEntries he
  rw [lowerValues_eq] at hk
  obtain ⟨f, hf, hfk⟩ := List.mem_map.mp hk
  have hkey : f.1 = k := congrArg Prod.fst hfk
  exact h.named f hf (hkey.trans (eq_nil_of_lower (hek.symm.trans hempty)))

end Config.SettingsFile

end ServiceKit
