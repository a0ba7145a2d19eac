import Mathlib
import ServiceKit.Proofs.Config.Tree

/-!
The keys of all plain values in a tree, as they are listed one after the other: every plain value is
listed or hidden by a key on the way to it, and nothing below a key is listed after it.
-/

namespace ServiceKit

namespace Setting

mutual

/-- Do all keys at and below a setting pass a test? The keys of a table are no texts and do not. -/
def everyKey (f : Text → Bool) : Setting → Bool
  | .map entries => everyEntry f entries
  | .table _ => false
  | .list items => everyItem f items
  | _ => true

def everyEntry (f : Text → Bool) : List (Text × Setting) → Bool
  | [] => true
  | (k, v) :: rest => f k && everyKey f v && everyEntry f rest

def everyItem (f : Text → Bool) : List Setting → Bool
  | [] => true
  | v :: rest => everyKey f v && everyItem f rest

end

theorem everyEntry_iff {f : Text → Bool} {entries : List (Text × Setting)} :
    everyEntry f entries = true ↔ ∀ e ∈ entries, f e.1 = true ∧ everyKey f e.2 = true := by
  induction entries with
  | nil => simp [everyEntry]
  | cons e entries ih => simp [everyEntry, ih]

theorem everyItem_iff {f : Text → Bool} {items : List Setting} :
    everyItem f items = true ↔ ∀ v ∈ items, everyKey f v = true := by
  induction items with
  | nil => simp [everyItem]
  | cons v items ih => simp [everyItem, ih]

end Setting

namespace Config.Tree

open Setting Text

def isLowerKey (k : Text) : Bool := k.lower == k

theorem lower_of_isLowerKey {k : Text} (h : isLowerKey k = true) : k.lower = k := beq_iff_eq.mp h

def isPart (k : Text) : Bool := !k.contains 0x2E

theorem everyKey_of_find? {f : Text → Bool} {k : Text} {t : Tree} {v : Setting}
    (ht : everyEntry f t = true) (h : Keyed.find? k t = some v) : everyKey f v = true :=
  (everyEntry_iff.mp ht _ (Keyed.mem_of_find? h)).2

theorem everyEntry_below {f : Text → Bool} {k : Text} {t : Tree} (ht : everyEntry f t = true) :
    everyEntry f (below (Keyed.find? k t)) = true := by
  cases hv : Keyed.find? k t with
  | none => rfl
  | some v =>
      have hk := everyKey_of_find? ht hv
      cases v with
      | map m => exact hk
      | _ => rfl

theorem everyKey_of_look {f : Text → Bool} {p : List Text} {t : Tree} {v : Setting}
    (ht : everyEntry f t = true) (h : look p t = some v) : everyKey f v = true := by
  induction p generalizing t with
  | nil =>
      cases h
      exact ht
  | cons k p ih =>
      cases p with
      | nil => exact everyKey_of_find? ht h
      | cons k' p => exact ih (everyEntry_below ht) h

theorem steps_of_look {f : Text → Bool} {p : List Text} {t : Tree} {v : Setting}
    (ht : everyEntry f t = true) (h : look p t = some v) : ∀ k ∈ p, f k = true := by
  induction p generalizing t with
  | nil => exact fun k hk => by cases hk
  | cons k p ih =>
      have hfirst : ∀ {x}, Keyed.find? k t = some x → f k = true := fun hx =>
        (everyEntry_iff.mp ht _ (Keyed.mem_of_find? hx)).1
      by_cases hp : p = []
      · subst hp
        intro k' hk'
        rw [List.mem_singleton.mp hk']
        exact hfirst h
      · rw [look_cons hp] at h
        obtain ⟨m, hm⟩ := exists_level_of_look hp h
        exact List.forall_mem_cons.mpr ⟨hfirst hm, ih (everyEntry_below ht) h⟩

theorem everyEntry_keyed_put {f : Text → Bool} {k : Text} {v : Setting} {t : Tree}
    (hk : f k = true) (hv : everyKey f v = true) (ht : everyEntry f t = true) :
    everyEntry f (Keyed.put k v t) = true := by
  rw [everyEntry_iff]
  intro e he
  rcases Keyed.mem_put he with rfl | he
  · exact ⟨hk, hv⟩
  · exact everyEntry_iff.mp ht e he

theorem everyEntry_put {f : Text → Bool} {v : Setting} {q : List Text} {t : Tree}
    (hv : everyKey f v = true) (hq : ∀ k ∈ q, f k = true) (ht : everyEntry f t = true) :
    everyEntry f (put v q t) = true := by
  induction q generalizing t with
  | nil => exact ht
  | cons k q ih =>
      have hk := hq k List.mem_cons_self
      cases q with
      | nil => exact everyEntry_keyed_put hk hv ht
      | cons k' q =>
          rw [put_cons (by simp)]
          have hrest := ih (fun x hx => hq x (List.mem_cons_of_mem k hx)) (everyEntry_below ht (k := k))
          exact everyEntry_keyed_put hk hrest ht

theorem everyEntry_putTexts {f : Text → Bool} {ws : List (List Text × Text)} {t : Tree}
    (hws : ∀ w ∈ ws, ∀ k ∈ w.1, f k = true) (ht : everyEntry f t = true) :
    everyEntry f (putTexts ws t) = true := by
  induction ws generalizing t with
  | nil => exact ht
  | cons w ws ih =>
      exact ih (fun v hv => hws v (List.mem_cons_of_mem w hv))
        (everyEntry_put rfl (hws w List.mem_cons_self) ht)

/-! ### What is listed -/

theorem mem_addKey {known : List Text} {key κ : Text} :
    κ ∈ addKey known key ↔ κ ∈ known ∨ κ = key := by
  rw [addKey]
  split
  · rename_i h
    have hkey : key ∈ known := by simpa using h
    constructor
    · exact .inl
    · rintro (h | rfl)
      · exact h
      · exact hkey
  · rw [List.mem_append, List.mem_singleton]

mutual

theorem mem_settingKeys_of_mem {κ : Text} {known : List Text} (h : κ ∈ known) (key : Text) :
    (v : Setting) → κ ∈ settingKeys known key v
  | .map entries => by
      rw [settingKeys]
      split
      · exact h
      · exact mem_levelKeys_of_mem h _ entries
  | .null | .bool _ | .int _ | .float _ | .string _ | .time _ | .list _ | .table _ =>
      mem_addKey.mpr (.inl h)

theorem mem_levelKeys_of_mem {κ : Text} {known : List Text} (h : κ ∈ known) (lead : Text) :
    (entries : List (Text × Setting)) → κ ∈ levelKeys known lead entries
  | [] => h
  | (k, v) :: rest => mem_levelKeys_of_mem (mem_settingKeys_of_mem h (lead ++ k) v) lead rest

end

mutual

theorem lower_of_mem_settingKeys {known : List Text} {κ : Text} (key : Text) :
    (v : Setting) → κ ∈ settingKeys known key v → κ ∈ known ∨ κ.lower = κ
  | .map entries, h => by
      rw [settingKeys] at h
      split at h
      · exact .inl h
      · exact lower_of_mem_levelKeys _ entries h
  | .null, h | .bool _, h | .int _, h | .float _, h | .string _, h | .time _, h | .list _, h
  | .table _, h => (mem_addKey.mp h).imp id fun he => by rw [he, lower_lower]

theorem lower_of_mem_levelKeys {known : List Text} {κ : Text} (lead : Text) :
    (entries : List (Text × Setting)) → κ ∈ levelKeys known lead entries → κ ∈ known ∨ κ.lower = κ
  | [], h => .inl h
  | (k, v) :: rest, h => by
      rcases lower_of_mem_levelKeys lead rest h with h | h
      · exact lower_of_mem_settingKeys (lead ++ k) v h
      · exact .inr h

end

theorem settingKeys_of_plain {v : Setting} (hv : ∀ m, v ≠ .map m) (known : List Text) (key : Text) :
    settingKeys known key v = addKey known key.lower := by
  cases v with
  | map m => exact absurd rfl (hv m)
  | _ => rfl

theorem mem_levelKeys_of_plain {lead k : Text} {v : Setting} (hv : ∀ m, v ≠ .map m) {entries : Tree}
    (h : (k, v) ∈ entries) (known : List Text) :
    (lead ++ k).lower ∈ levelKeys known lead entries := by
  induction entries generalizing known with
  | nil => cases h
  | cons e entries ih =>
      rw [levelKeys]
      rcases List.mem_cons.mp h with rfl | h
      · refine mem_levelKeys_of_mem ?_ lead entries
        rw [settingKeys_of_plain hv]
        exact mem_addKey.mpr (.inr rfl)
      · exact ih h _

theorem mem_levelKeys_of_empty {κ : Text} {m entries : Tree} (hm : ([], .map m) ∈ entries)
    (h : ∀ known, κ ∈ levelKeys known [] m) (known : List Text) : κ ∈ levelKeys known [] entries := by
  induction entries generalizing known with
  | nil => cases hm
  | cons e entries ih =>
      rw [levelKeys]
      rcases List.mem_cons.mp hm with rfl | hm
      · exact mem_levelKeys_of_mem (h known) [] entries
      · exact ih hm _

/-- A text at the top or below the empty name is listed by its last part. -/
theorem mem_levelKeys_of_deep {k s : Text} (n : Nat) {t : Tree}
    (h : look (List.replicate n [] ++ [k]) t = some (.string s)) (known : List Text) :
    k.lower ∈ levelKeys known [] t := by
  induction n generalizing t known with
  | zero => exact mem_levelKeys_of_plain (fun _ hm => by cases hm) (Keyed.mem_of_find? h) known
  | succ n ih =>
      have hne : List.replicate n [] ++ [k] ≠ [] := by simp
      rw [List.replicate_succ, List.cons_append, look_cons hne] at h
      obtain ⟨m, hm⟩ := exists_level_of_look hne h
      rw [hm] at h
      exact mem_levelKeys_of_empty (Keyed.mem_of_find? hm) (fun known => ih h known) known

/-- A plain value one level down is listed unless its level is. -/
theorem mem_levelKeys_of_below {k k' : Text} (hk : k ≠ []) {v : Setting} (hv : ∀ m, v ≠ .map m)
    {m entries : Tree} (h : (k, .map m) ∈ entries) (h' : (k', v) ∈ m) (known : List Text) :
    k ∈ levelKeys known [] entries ∨ (k ++ 0x2E :: k').lower ∈ levelKeys known [] entries := by
  induction entries generalizing known with
  | nil => cases h
  | cons e entries ih =>
      rw [levelKeys]
      rcases List.mem_cons.mp h with rfl | h
      · by_cases hknown : k ∈ known
        · exact .inl (mem_levelKeys_of_mem (mem_settingKeys_of_mem hknown _ _) [] entries)
        · refine .inr (mem_levelKeys_of_mem ?_ [] entries)
          rw [List.nil_append, settingKeys, if_neg (by simp [hknown]), if_neg (by simp [hk])]
          have hmem : (k ++ [0x2E] ++ k').lower ∈ levelKeys known (k ++ [0x2E]) m :=
            mem_levelKeys_of_plain hv h' known
          rwa [List.append_assoc] at hmem
      · exact ih h _

theorem exists_mem_levelKeys {P : Text → Prop} {lead k : Text} {v : Setting} {entries : Tree}
    (hmem : (k, v) ∈ entries) (h : ∀ known, ∃ κ ∈ settingKeys known (lead ++ k) v, P κ)
    (known : List Text) : ∃ κ ∈ levelKeys known lead entries, P κ := by
  induction entries generalizing known with
  | nil => cases hmem
  | cons e entries ih =>
      rw [levelKeys]
      rcases List.mem_cons.mp hmem with rfl | hmem
      · obtain ⟨κ, hκ, hP⟩ := h known
        exact ⟨κ, mem_levelKeys_of_mem hκ lead entries, hP⟩
      · exact ih hmem _

/-- A plain value below a setting is listed, or a key on the way to it is. -/
theorem exists_listed_in {x : Setting} (hx : ∀ m, x ≠ .map m) {q r : List Text} (hq : q ≠ [])
    (hkey : join [0x2E] q ≠ []) (hparts : ∀ k ∈ q ++ r, 0x2E ∉ k ∧ k.lower = k) {v : Setting}
    (h : lookIn v r = some x) (known : List Text) :
    ∃ κ ∈ settingKeys known (join [0x2E] q) v, pathOf κ <+: q ++ r := by
  have hpath : pathOf (join [0x2E] q) = q :=
    split_join hq fun k hk => (hparts k (List.mem_append_left r hk)).1
  have hself : pathOf (join [0x2E] q) <+: q ++ r := hpath.symm ▸ List.prefix_append q r
  induction r generalizing q v known with
  | nil =>
      obtain rfl : v = x := Option.some.inj h
      have hlower : (join [0x2E] q).lower = join [0x2E] q := by
        rw [lower_join isDivider_point, List.map_congr_left (g := id), List.map_id]
        intro k hk
        exact (hparts k (List.mem_append_left [] hk)).2
      refine ⟨join [0x2E] q, ?_, hself⟩
      rw [settingKeys_of_plain hx, hlower]
      exact mem_addKey.mpr (.inr rfl)
  | cons k r ih =>
      have hin : look (k :: r) (below (some v)) = some x := h
      cases v with
      | map m =>
          rw [settingKeys]
          split
          · rename_i hknown
            exact ⟨_, by simpa using (Bool.and_eq_true_iff.mp hknown).2, hself⟩
          · have hone : look ([k] ++ r) m = some x := hin
            rw [look_append (by simp)] at hone
            obtain ⟨y, hy, hrest⟩ := Option.bind_eq_some_iff.mp hone
            have hjoin : join [0x2E] (q ++ [k]) = join [0x2E] q ++ [0x2E] ++ k := by
              rw [join_append 0x2E hq (by simp), List.append_assoc]
              rfl
            have hnext : q ++ k :: r = q ++ [k] ++ r := by simp
            rw [if_neg (by simpa using hkey), hnext]
            refine exists_mem_levelKeys (Keyed.mem_of_find? hy) (fun known => ?_) known
            rw [← hjoin]
            rw [hnext] at hparts
            have hpath' : pathOf (join [0x2E] (q ++ [k])) = q ++ [k] :=
              split_join (by simp) fun k hk => (hparts k (List.mem_append_left r hk)).1
            exact ih (by simp) (by simp [hjoin]) hparts hrest known hpath'
              (hpath'.symm ▸ List.prefix_append _ r)
      | _ =>
          change look (k :: r) [] = _ at hin
          rw [look_nil_tree (by simp)] at hin
          cases hin

/-- A plain value is listed, or a key on the way to it is. -/
theorem exists_listed {x : Setting} (hx : ∀ m, x ≠ .map m) {w : Text} (hw : w.lower = w)
    {k : Text} {r : List Text} (hpath : pathOf w = k :: r) (hk : k ≠ []) {t : Tree}
    (h : look (pathOf w) t = some x) (known : List Text) :
    ∃ κ ∈ levelKeys known [] t, pathOf κ <+: pathOf w := by
  have hparts : ∀ k' ∈ [k] ++ r, 0x2E ∉ k' ∧ k'.lower = k' := by
    intro k' hk'
    have hmem : k' ∈ pathOf w := hpath.symm ▸ hk'
    exact ⟨not_mem_of_mem_split hmem, lower_of_mem_split isDivider_point hw hmem⟩
  rw [hpath] at h ⊢
  have hone : look ([k] ++ r) t = some x := h
  rw [look_append (by simp)] at hone
  obtain ⟨v, hv, hrest⟩ := Option.bind_eq_some_iff.mp hone
  refine exists_mem_levelKeys (Keyed.mem_of_find? hv) (fun known => ?_) known
  exact exists_listed_in hx (q := [k]) (by simp) hk hparts hrest known

/-! ### The order of the list -/

/-- A key as files and variables have them once they are in lower case. -/
def isPlainKey (k : Text) : Bool := isPlainLower k && !k.contains 0x2E

theorem isPlainLower_of_isPlainKey {k : Text} (h : isPlainKey k = true) : isPlainLower k = true :=
  (Bool.and_eq_true_iff.mp h).1

theorem not_mem_of_isPlainKey {k : Text} (h : isPlainKey k = true) : 0x2E ∉ k := by
  have hc := (Bool.and_eq_true_iff.mp h).2
  simpa using hc

theorem isPlainLower_append {s t : Text} (hs : isPlainLower s = true) (ht : isPlainLower t = true) :
    isPlainLower (s ++ t) = true := by
  rw [isPlainLower, List.all_append]
  exact Bool.and_eq_true_iff.mpr ⟨hs, ht⟩

mutual

theorem settingKeys_start {known : List Text} {key κ : Text} (hkey : isPlainLower key = true) :
    (v : Setting) → everyKey isPlainKey v = true → κ ∈ settingKeys known key v →
      κ ∈ known ∨ (key <+: κ ∧ isPlainLower κ = true)
  | .map entries, hv, h => by
      rw [settingKeys] at h
      split at h
      · exact .inl h
      · split at h
        · rename_i hempty
          rw [List.isEmpty_iff.mp hempty]
          exact (levelKeys_start rfl entries hv h).imp id fun h => ⟨List.nil_prefix, h.2⟩
        · have hlead := isPlainLower_append hkey (t := [0x2E]) (by decide)
          exact (levelKeys_start hlead entries hv h).imp id fun h =>
            ⟨(List.prefix_append key _).trans h.1, h.2⟩
  | .null, _, h | .bool _, _, h | .int _, _, h | .float _, _, h | .string _, _, h | .time _, _, h
  | .list _, _, h | .table _, _, h => by
      rcases mem_addKey.mp h with h | rfl
      · exact .inl h
      · rw [lower_of_isPlainLower hkey]
        exact .inr ⟨List.prefix_rfl, hkey⟩

theorem levelKeys_start {known : List Text} {lead κ : Text} (hlead : isPlainLower lead = true) :
    (entries : List (Text × Setting)) → everyEntry isPlainKey entries = true →
      κ ∈ levelKeys known lead entries → κ ∈ known ∨ (lead <+: κ ∧ isPlainLower κ = true)
  | [], _, h => .inl h
  | (k, v) :: rest, hentries, h => by
      rw [everyEntry, Bool.and_eq_true_iff, Bool.and_eq_true_iff] at hentries
      obtain ⟨⟨hk, hv⟩, hrest⟩ := hentries
      have hkey := isPlainLower_append hlead (isPlainLower_of_isPlainKey hk)
      rcases levelKeys_start hlead rest hrest h with h | h
      · exact (settingKeys_start hkey v hv h).imp id fun h =>
          ⟨(List.prefix_append lead k).trans h.1, h.2⟩
      · exact .inr h

end

theorem prefix_of_prefix_append {a s u : Text} {b : UInt8} (hb : b ∉ u) (h : a ++ [b] <+: s ++ u) :
    a ++ [b] <+: s := by
  rcases List.prefix_or_prefix_of_prefix h (List.prefix_append s u) with h' | ⟨r, hr⟩
  · exact h'
  · rcases List.eq_nil_or_concat r with rfl | ⟨r', c, rfl⟩
    · rw [List.append_nil] at hr
      exact hr ▸ List.prefix_rfl
    · rw [← hr] at h
      have hmem : c ∈ u := ((List.prefix_append_right_inj s).mp h).subset (by simp)
      rw [List.concat_eq_append, ← List.append_assoc] at hr
      have hc : c = b := by simpa using (List.append_inj' hr rfl).2
      exact absurd (hc ▸ hmem) hb

/-- Is no key of a list on the way to a key that starts with a text? -/
def Clear (known : List Text) (lead : Text) : Prop := ∀ a ∈ known, ¬a ++ [0x2E] <+: lead

/-- Does nothing below a key come after it? -/
def Ordered (keys : List Text) : Prop := keys.Pairwise fun a b => ¬a ++ [0x2E] <+: b

theorem Ordered.addKey {known : List Text} {key : Text} (h : Ordered known) (hkey : Clear known key) :
    Ordered (addKey known key) := by
  rw [Tree.addKey]
  split
  · exact h
  · exact List.pairwise_append.mpr ⟨h, List.pairwise_singleton _ _, fun a ha b hb => by
      rw [List.mem_singleton.mp hb]
      exact hkey a ha⟩

mutual

theorem settingKeys_ordered {known : List Text} {key : Text} (hkey : isPlainLower key = true)
    (hclear : Clear known key) (h : Ordered known) :
    (v : Setting) → everyKey isPlainKey v = true → Ordered (settingKeys known key v)
  | .map entries, hv => by
      rw [settingKeys]
      split
      · exact h
      · rename_i hknown
        split
        · refine levelKeys_ordered rfl (fun a _ hp => ?_) h entries hv
          simpa using hp.length_le
        · rename_i hne
          have hmem : key ∉ known := by simpa [hne] using hknown
          refine levelKeys_ordered (isPlainLower_append hkey (by decide)) (fun a ha hp => ?_) h entries hv
          -- of the keys that are listed, none is this one or on the way to it
          rcases List.prefix_concat_iff.mp hp with he | hp
          · exact hmem ((List.append_inj' he rfl).1 ▸ ha)
          · exact hclear a ha hp
  | .null, _ | .bool _, _ | .int _, _ | .float _, _ | .string _, _ | .time _, _ | .list _, _
  | .table _, _ => by
      have hl : Clear known key.lower := (lower_of_isPlainLower hkey).symm ▸ hclear
      exact h.addKey hl

theorem levelKeys_ordered {known : List Text} {lead : Text} (hlead : isPlainLower lead = true)
    (hclear : Clear known lead) (h : Ordered known) :
    (entries : List (Text × Setting)) → everyEntry isPlainKey entries = true →
      Ordered (levelKeys known lead entries)
  | [], _ => h
  | (k, v) :: rest, hentries => by
      rw [everyEntry, Bool.and_eq_true_iff, Bool.and_eq_true_iff] at hentries
      obtain ⟨⟨hk, hv⟩, hrest⟩ := hentries
      have hkey := isPlainLower_append hlead (isPlainLower_of_isPlainKey hk)
      have hclear' : Clear known (lead ++ k) := fun a ha hp =>
        hclear a ha (prefix_of_prefix_append (not_mem_of_isPlainKey hk) hp)
      refine levelKeys_ordered hlead (fun a ha hp => ?_) (settingKeys_ordered hkey hclear' h v hv)
        rest hrest
      rcases settingKeys_start hkey v hv ha with ha | ⟨hstart, -⟩
      · exact hclear a ha hp
      · -- what was added last is longer than the start of this level
        have hlt := hp.length_le
        have hshort := ((List.prefix_append lead k).trans hstart).length_le
        simp only [List.length_append, List.length_singleton] at hlt
        omega

end

end Config.Tree

end ServiceKit
