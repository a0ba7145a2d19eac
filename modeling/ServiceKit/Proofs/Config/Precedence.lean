import Mathlib
import ServiceKit.Proofs.Config.Fields
import ServiceKit.Proofs.Config.Loading
import ServiceKit.Proofs.Config.Merging
import ServiceKit.Proofs.Config.SettingsFile

/-!
Which layer a field of a configuration is taken from: the last variable that stands for it, else the
settings file, else the value that it had before. A section that is listed as a key of its own is the
exception: of the file nothing is left in it once a variable sets something in it.
-/

namespace ServiceKit.Config

open Setting Text SettingsFile ServiceKit.Config.Tree

/-! ### The file -/

/-- Are the keys of a file ASCII without points, and those of the two upper levels different without
regard to case? -/
def PlainFile (entries : Tree) : Prop :=
  everyEntry isAsciiKey entries = true ∧ Distinct entries ∧ ∀ e ∈ entries, Distinct (below (some e.2))

instance (entries : Tree) : Decidable (PlainFile entries) :=
  inferInstanceAs (Decidable (_ ∧ _ ∧ _))

/-- What a file has at the end of a path, however the keys are spelled. -/
def spelledAt? : List Text → Tree → Option Setting
  | [], t => some (.map t)
  | [k], t => spelled? k t
  | k :: path, t => spelledAt? path (below (spelled? k t))

/-- A setting that is a value of its own: not null and not a level. -/
def plain? : Option Setting → Option Setting
  | some (.map _) => none
  | v => given? v

theorem distinct_below {entries : Tree} (h : PlainFile entries) (k : Text) :
    Distinct (below (spelled? k entries)) := by
  cases hs : spelled? k entries with
  | none => exact List.nodup_nil
  | some v =>
      obtain ⟨e, he, -, rfl⟩ := (spelled?_eq_some h.2.1).mp hs
      exact h.2.2 e he

/-- The lower level of a file whose keys are in lower case. -/
theorem below_lowered (order : MapOrder) {entries : Tree} (h : PlainFile entries) (k : Text) :
    below ((spelled? k entries).map (lowerKeys order)) =
      lowerEntries order (lowerValues order (below (spelled? k entries))) := by
  cases hs : spelled? k entries with
  | none => rfl
  | some v =>
      obtain ⟨e, he, -, rfl⟩ := (spelled?_eq_some h.2.1).mp hs
      have hkeys := (everyEntry_iff.mp h.1 e he).2
      rw [Option.map_some]
      cases hv : e.2 with
      | table es =>
          rw [hv] at hkeys
          cases hkeys
      | _ => rfl

theorem look_lowered (order : MapOrder) {entries : Tree} (h : PlainFile entries) (f : Field) :
    look f.path (lowerEntries order (lowerValues order entries)) =
      (spelledAt? f.path entries).map (lowerKeys order) := by
  have hone : ∀ k, look [k] (lowerEntries order (lowerValues order entries)) =
      (spelledAt? [k] entries).map (lowerKeys order) := find?_lowered order h.2.1
  have htwo : ∀ k k', look [k, k'] (lowerEntries order (lowerValues order entries)) =
      (spelledAt? [k, k'] entries).map (lowerKeys order) := by
    intro k k'
    rw [look_cons (by simp), find?_lowered order h.2.1, below_lowered order h]
    exact find?_lowered order (distinct_below h k) k'
  cases f with
  | name | environment | debug => exact hone _
  | _ => exact htwo _ _

/-- A setting fits a field however the keys in it are spelled. -/
theorem decode?_lowerKeys (order : MapOrder) (f : Field) (v : Setting) :
    f.decode? (lowerKeys order v) = f.decode? v := by
  cases v with
  | map _ | table _ | list _ => cases f <;> rfl
  | _ => rfl

/-! ### Variables -/

/-- The value of the last variable that counts under a name in lower case. -/
def lastBound? (lead : Text) (env : Environment) (name : Text) : Option Text :=
  (env.reverse.find? fun e => (Layers.boundName? lead e.1).map lower == some name).map Prod.snd

namespace Field

/-- The name of the variable for a field, in lower case. -/
def variableName (f : Field) : Text := f.key.swap 0x2E 0x5F

theorem path_eq (f : Field) : f.path = pathOf f.key := by
  cases f <;> decide

theorem lower_key (f : Field) : f.key.lower = f.key := by
  cases f <;> decide

theorem path_ne_nil (f : Field) : f.path ≠ [] := by
  rw [f.path_eq]
  exact pathOf_ne_nil f.key

section

variable {f : Field} {g : String}

theorem path_of_group (h : f.group? = some g) : f.path = [utf8 g, utf8 f.word] := by
  rw [path, h]
  rfl

theorem key_of_group (h : f.group? = some g) : f.key = utf8 g ++ 0x2E :: utf8 f.word := by
  rw [key, path_of_group h]
  simp [join]

theorem path_of_no_group (h : f.group? = none) : f.path = [f.key] := by
  rw [key, path, h]
  rfl

/-- The name of a group is a key by itself. -/
theorem group_plain (h : f.group? = some g) :
    isPlainLower (utf8 g) = true ∧ utf8 g ≠ [] ∧ pathOf (utf8 g) = [utf8 g] := by
  cases f <;> cases h <;> decide

theorem word_plain (f : Field) : isPlainLower (utf8 f.word) = true ∧
    ∀ i, Number.integerOf 10 (utf8 f.word) ≠ .ok i := by
  constructor
  · cases f <;> decide
  · intro i
    cases f <;> exact fun h => by cases h

end

/-- The field's key is among those of a name exactly if the name is the field's. -/
theorem key_mem_keyVariants (f : Field) {k : Text} (hk : 0x2E ∉ k) :
    f.key ∈ keyVariants k ↔ k.lower = f.variableName := by
  constructor
  · intro h
    exact (swap_of_mem_keyVariants hk h).symm
  · intro h
    cases hg : f.group? with
    | none =>
        have hkey : f.variableName = f.key := by
          cases f <;> first | decide | cases hg
        exact mem_keyVariants.mpr (.inl (hkey ▸ h).symm)
    | some g =>
        have hname : f.variableName = utf8 g ++ 0x5F :: utf8 f.word := by
          cases f <;> cases hg <;> decide
        rw [key_of_group hg]
        exact mem_keyVariants_of_divided (h.trans hname)

end Field

/-- Is no key of a variable that counts on the way to a field's key or below it? -/
def ClearOf (lead : Text) (env : Environment) (f : Field) : Prop :=
  ∀ e ∈ env, ∀ k ∈ Layers.boundName? lead e.1, ∀ w ∈ keyVariants k,
    ¬w ++ [0x2E] <+: f.key ∧ ¬f.key ++ [0x2E] <+: w

instance (lead : Text) (env : Environment) (f : Field) : Decidable (ClearOf lead env f) :=
  inferInstanceAs (Decidable (∀ e ∈ env, _))

theorem at_or_apart_of_clear {f : Field} {w : Text} (h1 : ¬w ++ [0x2E] <+: f.key)
    (h2 : ¬f.key ++ [0x2E] <+: w) : w = f.key ∨ Apart f.path (pathOf w) := by
  by_cases he : w = f.key
  · exact .inl he
  · rw [f.path_eq]
    refine .inr ⟨fun h => ?_, fun h => ?_⟩
    · exact (split_prefix_iff.mp h).elim (fun h => he h.symm) h2
    · exact (split_prefix_iff.mp h).elim he h1

theorem not_mem_of_isAsciiKey {k : Text} (h : isAsciiKey k = true) : 0x2E ∉ k := by
  have hpoint := (Bool.and_eq_true_iff.mp h).2
  simpa using hpoint

theorem mem_writes_iff {lead : Text} {e : Text × Text} (he : isAsciiKey e.1 = true) (f : Field) :
    (f.path, e.2) ∈ Layers.writes lead e ↔
      (Layers.boundName? lead e.1).map lower = some f.variableName := by
  have hpoint : ∀ {k}, Layers.boundName? lead e.1 = some k → 0x2E ∉ k := fun hk hmem =>
    not_mem_of_isAsciiKey he ((Layers.suffix_of_boundName? hk).subset hmem)
  rw [Option.map_eq_some_iff]
  constructor
  · intro h
    obtain ⟨k, w, hk, hw, he⟩ := Layers.mem_writes h
    have hkey : w = f.key := split_injective 0x2E ((congrArg Prod.fst he).symm.trans f.path_eq)
    exact ⟨k, hk, (f.key_mem_keyVariants (hpoint hk)).mp (hkey ▸ hw)⟩
  · rintro ⟨k, hk, hname⟩
    rw [f.path_eq]
    exact Layers.mem_writes_of_mem_keyVariants hk ((f.key_mem_keyVariants (hpoint hk)).mpr hname)

/-- What the overrides have for a field is the value of the last variable that stands for it. -/
theorem look_bind_field {lead : Text} {env : Environment} {f : Field}
    (hnames : ∀ e ∈ env, isAsciiKey e.1 = true) (hclear : ClearOf lead env f) (l : Layers)
    (hl : look f.path l.overrides = none) :
    look f.path (l.bind lead env).overrides = (lastBound? lead env f.variableName).map .string := by
  -- from the last variable backwards, since the last one that stands for the field decides
  induction env using List.reverseRecOn with
  | nil => exact hl
  | append_singleton env e ih =>
      have ih := ih (fun x hx => hnames x (List.mem_append_left _ hx))
        fun x hx => hclear x (List.mem_append_left _ hx)
      have hws : ∀ v ∈ Layers.writes lead e, v = (f.path, e.2) ∨ Apart f.path v.1 := by
        intro v hv
        obtain ⟨k, w, hk, hw, rfl⟩ := Layers.mem_writes hv
        obtain ⟨h1, h2⟩ := hclear e (by simp) k hk w hw
        exact (at_or_apart_of_clear h1 h2).imp (fun he => by rw [he, f.path_eq]) id
      have hmem : (f.path, e.2) ∈ Layers.writes lead e ↔ _ := mem_writes_iff (hnames e (by simp)) f
      rw [Layers.bind_eq] at ih ⊢
      rw [List.flatMap_append, List.flatMap_singleton, putTexts_append]
      refine (look_putTexts (f.path_eq ▸ pathOf_ne_nil f.key) hws _).trans ?_
      rw [lastBound?, List.reverse_append, List.reverse_singleton, List.singleton_append,
        List.find?_cons]
      by_cases h : (Layers.boundName? lead e.1).map lower = some f.variableName
      · rw [if_pos (hmem.mpr h), h]
        simp
      · rw [if_neg fun h' => h (hmem.mp h'), beq_eq_false_iff_ne.mpr h]
        exact ih

/-! ### Layers with plain keys -/

/-- Layers as a load has them whose keys are all plain. -/
structure PlainLayers (l : Layers) : Prop where
  texts : OnlyTexts l.overrides
  overrides : everyEntry isPlainKey l.overrides = true
  file : everyEntry isPlainKey l.file = true

theorem isPlainKey_of_mem_pathOf {w k : Text} (hw : isPlainLower w = true) (h : k ∈ pathOf w) :
    isPlainKey k = true := by
  have hk : isPlainLower k = true := (isPlainLower_iff k).mpr fun b hb =>
    (isPlainLower_iff w).mp hw b (mem_of_mem_split h hb)
  have hpoint := not_mem_of_mem_split h
  rw [isPlainKey, hk]
  simpa using hpoint

theorem isPlainLower_of_mem_keyVariants {k w : Text} (hk : isAsciiKey k = true)
    (hw : w ∈ keyVariants k) : isPlainLower w = true := by
  have hlower := isPlainLower_of_isPlainKey (isPlainKey_lower hk)
  have hswap := swap_of_mem_keyVariants (not_mem_of_isAsciiKey hk) hw
  rw [isPlainLower_iff]
  intro b hb
  by_cases hpoint : b = 0x2E
  · subst hpoint
    decide
  · refine (isPlainLower_iff _).mp hlower b ?_
    rw [← hswap, swap]
    exact List.mem_map.mpr ⟨b, hb, if_neg hpoint⟩

theorem isAsciiKey_of_suffix {k name : Text} (h : k <:+ name) (hname : isAsciiKey name = true) :
    isAsciiKey k = true := by
  rw [isAsciiKey, Bool.and_eq_true_iff, List.all_eq_true, Bool.not_eq_true', List.contains_eq_mem,
    decide_eq_false_iff_not] at hname ⊢
  exact ⟨fun b hb => hname.1 b (h.subset hb), fun hb => hname.2 (h.subset hb)⟩

theorem plainLayers_bind {lead : Text} {env : Environment} {file : Tree}
    (hnames : ∀ e ∈ env, isAsciiKey e.1 = true) (hfile : everyEntry isPlainKey file = true) :
    PlainLayers (({ file := file } : Layers).bind lead env) := by
  refine ⟨Layers.onlyTexts_bind lead env file, ?_, ?_⟩
  · rw [Layers.bind_eq]
    refine everyEntry_putTexts (fun v hv k hk => ?_) rfl
    obtain ⟨e, he, hv⟩ := List.mem_flatMap.mp hv
    obtain ⟨name, w, hname, hw, rfl⟩ := Layers.mem_writes hv
    have hascii := isAsciiKey_of_suffix (Layers.suffix_of_boundName? hname) (hnames e he)
    exact isPlainKey_of_mem_pathOf (isPlainLower_of_mem_keyVariants hascii hw) hk
  · rw [Layers.bind_eq]
    exact hfile

namespace PlainLayers

variable {l : Layers} (hl : PlainLayers l)

include hl

theorem plain_of_mem_keys {κ : Text} (h : κ ∈ l.keys) : isPlainLower κ = true := by
  rcases levelKeys_start (by rfl) l.file hl.file h with h | h
  · rcases levelKeys_start (by rfl) l.overrides hl.overrides h with h | h
    · cases h
    · exact h.2
  · exact h.2

theorem keys_ordered : Ordered l.keys := by
  have hempty : ∀ known : List Text, Clear known [] := by
    intro known a _ h
    simpa using h.length_le
  exact levelKeys_ordered rfl (hempty _)
    (levelKeys_ordered rfl (hempty _) List.Pairwise.nil l.overrides hl.overrides) l.file hl.file

theorem plain_merged {t : Tree} (ht : l.merged = .ok t) : everyEntry isPlainKey t = true := by
  refine Layers.mergeKeys_preserves (P := fun u => everyEntry isPlainKey u = true)
    (fun κ hκ v u hv hu => ?_) rfl ht
  exact everyEntry_put (Layers.everyKey_get? hl.texts hl.overrides hl.file hv)
    (fun k hk => isPlainKey_of_mem_pathOf (hl.plain_of_mem_keys hκ) hk) hu

end PlainLayers

/-- A value in a field's place is listed, or its section is. -/
theorem listed_of_look {f : Field} {v : Setting} (hv : ∀ m, v ≠ .map m) {t : Tree}
    (h : look f.path t = some v) (known : List Text) :
    ∃ κ ∈ levelKeys known [] t, pathOf κ <+: f.path := by
  cases hg : f.group? with
  | none =>
      rw [Field.path_of_no_group hg] at h
      have hmem : lower ([] ++ f.key) ∈ levelKeys known [] t :=
        mem_levelKeys_of_plain hv (Keyed.mem_of_find? h) known
      rw [List.nil_append, f.lower_key] at hmem
      exact ⟨f.key, hmem, f.path_eq ▸ List.prefix_rfl⟩
  | some g =>
      obtain ⟨-, hne, hgroup⟩ := Field.group_plain hg
      rw [Field.path_of_group hg, look_cons (by simp)] at h
      cases hfind : Keyed.find? (utf8 g) t with
      | none =>
          rw [hfind] at h
          cases h
      | some x =>
          rw [hfind] at h
          cases x with
          | map m =>
              rcases mem_levelKeys_of_below hne hv (Keyed.mem_of_find? hfind) (Keyed.mem_of_find? h)
                known with hmem | hmem
              · refine ⟨utf8 g, hmem, ?_⟩
                rw [hgroup, Field.path_of_group hg]
                exact List.prefix_append [utf8 g] _
              · rw [← Field.key_of_group hg, f.lower_key] at hmem
                exact ⟨f.key, hmem, f.path_eq ▸ List.prefix_rfl⟩
          | _ => cases h

/-- A value in a field's place is not missed: a key on the way to it has a value. -/
theorem given_of_look {f : Field} {v : Setting} (hv : ∀ m, v ≠ .map m) (hgiven : given? (some v) = some v)
    {t : Tree} (h : look f.path t = some v) (known : List Text) :
    ∃ κ ∈ levelKeys known [] t, pathOf κ <+: f.path ∧ (given? (look (pathOf κ) t)).isSome := by
  obtain ⟨κ, hκ, r, hr⟩ := listed_of_look hv h known
  refine ⟨κ, hκ, ⟨r, hr⟩, ?_⟩
  rw [← hr, look_append (pathOf_ne_nil κ)] at h
  obtain ⟨x, hx, hin⟩ := Option.bind_eq_some_iff.mp h
  cases x with
  | null =>
      -- null has nothing below it and is not the value itself
      cases r with
      | nil =>
          cases hin
          cases hgiven
      | cons k r =>
          change look (k :: r) [] = some v at hin
          rw [look_nil_tree (by simp)] at hin
          cases hin
  | _ =>
      rw [hx]
      rfl

theorem plain?_eq_some {o : Option Setting} {v : Setting} (h : plain? o = some v) :
    o = some v ∧ (∀ m, v ≠ .map m) ∧ given? (some v) = some v := by
  unfold plain? at h
  split at h
  · cases h
  · rename_i hmap
    have hsome := given?_eq_some h
    exact ⟨hsome, fun m hm => hmap m (hm ▸ hsome), hsome ▸ h⟩

/-! ### Which layer counts -/

/-- Is a section listed as a key of its own while the overrides have the section? -/
def isHidden (l : Layers) (part : Text) : Bool :=
  l.keys.contains part && (Keyed.find? part l.overrides).isSome

/-- Without a variable for a key of two parts, and unless its section is hidden, the key is read from
the file. A file may have a point in a key, and then that key would be found before the section. -/
theorem fromFile_pair {l : Layers} (hl : OnlyTexts l.overrides) {k k' : Text} (hk : k.lower = k)
    (hk' : k'.lower = k') (hpath : pathOf k = [k]) (hnum : ∀ i, Number.integerOf 10 k' ≠ .ok i)
    (hnone : look [k, k'] l.overrides = none) (htext : ∀ s, Keyed.find? k l.overrides ≠ some (.string s))
    (hhidden : isHidden l k = false) (hpoint : Keyed.find? (k ++ 0x2E :: k') l.file = none)
    (htable : ∀ es, Keyed.find? k l.file ≠ some (.table es)) : Layers.FromFile l [k, k'] := by
  intro κ hκ hprefix
  have hlower := Layers.lower_of_mem_keys hκ
  rcases eq_of_prefix_pair (pathOf_ne_nil κ) hprefix with hκpath | hκpath
  · obtain rfl : κ = k := split_injective 0x2E (hκpath.trans hpath.symm)
    have hfind : Keyed.find? κ l.overrides = none := by
      simpa [isHidden, hκ] using hhidden
    rw [hκpath]
    exact Layers.get?_single hlower hκpath hfind
  · rw [hκpath]
    exact Layers.get?_pair hl hlower hk hk' hκpath hnum htext hnone hpoint htable

/-- Is the section of a field hidden? -/
def Field.isHidden (l : Layers) (f : Field) : Bool := f.group?.any fun g => Config.isHidden l (utf8 g)

namespace PlainLayers

variable {l : Layers} (hl : PlainLayers l)

include hl

/-- Without a variable for a field, and unless its section is hidden, the field is read from the
file. -/
theorem fromFile {f : Field} (hnone : look f.path l.overrides = none)
    (htext : ∀ g s, f.group? = some g → Keyed.find? (utf8 g) l.overrides ≠ some (.string s))
    (hhidden : f.isHidden l = false) : Layers.FromFile l f.path := by
  cases hg : f.group? with
  | none =>
      intro κ hκ hprefix
      have hlower := Layers.lower_of_mem_keys hκ
      rw [Field.path_of_no_group hg] at hprefix hnone
      have hpath := eq_of_prefix_singleton (pathOf_ne_nil κ) hprefix
      have hkey : κ = f.key := split_injective 0x2E (hpath.trans
        ((Field.path_of_no_group hg).symm.trans f.path_eq))
      subst hkey
      rw [hpath]
      exact Layers.get?_single hlower hpath hnone
  | some g =>
      obtain ⟨hplain, -, hgroup⟩ := Field.group_plain hg
      obtain ⟨hword, hnumber⟩ := f.word_plain
      have hpoint : Keyed.find? (utf8 g ++ 0x2E :: utf8 f.word) l.file = none := by
        refine Keyed.find?_eq_none.mpr fun e he hk => ?_
        exact not_mem_of_isPlainKey (everyEntry_iff.mp hl.file e he).1 (by simp [hk])
      have htable : ∀ es, Keyed.find? (utf8 g) l.file ≠ some (.table es) := by
        intro es h
        cases everyKey_of_find? hl.file h
      rw [Field.path_of_group hg] at hnone ⊢
      rw [Field.isHidden, hg, Option.any_some] at hhidden
      exact fromFile_pair hl.texts (lower_of_isPlainLower hplain) (lower_of_isPlainLower hword) hgroup
        hnumber hnone (fun s => htext g s hg) hhidden hpoint htable

theorem settled_of_variable {f : Field} {s : Text} {c c' : ServiceConfig} {t : Tree}
    (h : look f.path l.overrides = some (.string s)) (ht : l.merged = .ok t)
    (hc : decodeService c t = (c', [])) : f.decode? (.string s) = some (f.get c') := by
  have hlisted : ∃ κ ∈ l.keys, pathOf κ <+: f.path := by
    obtain ⟨κ, hκ, hprefix⟩ := listed_of_look (fun m hm => by cases hm) h []
    exact ⟨κ, mem_levelKeys_of_mem hκ [] l.file, hprefix⟩
  have hlook := Layers.merged_look_text hl.texts f.path_ne_nil h hlisted ht
  have hsettled := decodeService_field (hl.plain_merged ht) hc f
  rw [hlook] at hsettled
  exact hsettled

/-- A field in a hidden section keeps its value without a variable of its own. -/
theorem settled_of_hidden {f : Field} {c c' : ServiceConfig} {t : Tree}
    (hnone : look f.path l.overrides = none) (hhidden : f.isHidden l = true)
    (ht : l.merged = .ok t) (hc : decodeService c t = (c', [])) : f.get c' = f.get c := by
  have hsettled := decodeService_field (hl.plain_merged ht) hc f
  cases hg : f.group? with
  | none => simp [Field.isHidden, hg] at hhidden
  | some g =>
      obtain ⟨hplain, -, hgroup⟩ := Field.group_plain hg
      rw [Field.isHidden, hg, Option.any_some, isHidden, Bool.and_eq_true_iff] at hhidden
      obtain ⟨v, hv⟩ := Option.isSome_iff_exists.mp hhidden.2
      have hlook : look [utf8 g, utf8 f.word] t = look [utf8 g, utf8 f.word] l.overrides :=
        Layers.merged_look_section hl.texts hl.keys_ordered (lower_of_isPlainLower hplain) hgroup
          (by simpa using hhidden.1) hv ht
      rw [Field.path_of_group hg] at hnone hsettled
      rw [hlook, hnone] at hsettled
      exact hsettled

/-- A field that is read from the file has the file's value, if the file has one. -/
theorem settled_of_file {f : Field} {c c' : ServiceConfig} {t : Tree} (hfile : Layers.FromFile l f.path)
    (ht : l.merged = .ok t) (hc : decodeService c t = (c', [])) :
    Settled f.decode? (f.get c) (plain? (look f.path l.file)) (f.get c') := by
  have hsettled := decodeService_field (hl.plain_merged ht) hc f
  have hlevel : ¬Layers.IsLevel f.path t := by
    rintro ⟨m, hm⟩
    rw [hm] at hsettled
    cases f <;> cases hsettled
  cases hv : plain? (look f.path l.file) with
  | some v =>
      obtain ⟨hsome, hmap, hgiven⟩ := plain?_eq_some hv
      have hlisted : ∃ κ ∈ l.keys, pathOf κ <+: f.path ∧
          (given? (look (pathOf κ) l.file)).isSome := given_of_look hmap hgiven hsome _
      rcases Layers.merged_look_listed f.path_ne_nil hfile hlisted ht with hlook | h
      · rw [hlook, hsome, hgiven] at hsettled
        exact hsettled
      · exact absurd h hlevel
  | none =>
      rcases Layers.merged_look_file f.path_ne_nil hfile ht with hlook | hlook | h
      · rw [hlook] at hsettled
        exact hsettled
      · unfold plain? at hv
        split at hv
        · rename_i m hm
          exact absurd ⟨m, hlook.trans hm⟩ hlevel
        · rw [hlook, hv] at hsettled
          exact hsettled
      · exact absurd h hlevel

end PlainLayers

theorem plain?_lowerKeys (order : MapOrder) {o : Option Setting} (ho : ∀ es, o ≠ some (.table es)) :
    plain? (o.map (lowerKeys order)) = (plain? o).map (lowerKeys order) := by
  cases o with
  | none => rfl
  | some v =>
      cases v with
      | table es => exact absurd rfl (ho es)
      | _ => rfl

theorem everyKey_of_spelled? {k : Text} {t : Tree} {v : Setting} (ht : everyEntry isAsciiKey t = true)
    (h : spelled? k t = some v) : everyKey isAsciiKey v = true := by
  obtain ⟨e, he, rfl⟩ := Option.map_eq_some_iff.mp h
  exact (everyEntry_iff.mp ht e (List.mem_of_find?_eq_some he)).2

theorem everyKey_of_spelledAt? {p : List Text} {t : Tree} {v : Setting}
    (ht : everyEntry isAsciiKey t = true) (h : spelledAt? p t = some v) :
    everyKey isAsciiKey v = true := by
  induction p generalizing t with
  | nil =>
      cases h
      exact ht
  | cons k p ih =>
      cases p with
      | nil => exact everyKey_of_spelled? ht h
      | cons k' p =>
          refine ih (t := below (spelled? k t)) ?_ h
          cases hv : spelled? k t with
          | none => rfl
          | some x =>
              have hx := everyKey_of_spelled? ht hv
              cases x with
              | map m => exact hx
              | _ => rfl

/-- No variable that leaves the way to a field clear is a text in place of the field's section. -/
theorem section_not_text {lead : Text} {env : Environment} {f : Field} (hclear : ClearOf lead env f)
    {g : String} (hg : f.group? = some g) (file : Tree) (s : Text) :
    Keyed.find? (utf8 g) (({ file := file } : Layers).bind lead env).overrides ≠
      some (.string s) := by
  intro h
  rw [Layers.bind_eq] at h
  obtain ⟨-, -, hgroup⟩ := Field.group_plain hg
  rcases look_putTexts_source (p := [utf8 g]) (by simp) Layers.writes_ne_nil h with
    ⟨s', -, hmem⟩ | ⟨m, hm, -⟩
  · obtain ⟨e, he, hw⟩ := List.mem_flatMap.mp hmem
    obtain ⟨k, w, hk, hwk, heq⟩ := Layers.mem_writes hw
    have hwg : w = utf8 g := split_injective 0x2E ((congrArg Prod.fst heq).symm.trans hgroup.symm)
    refine (hclear e he k hk w hwk).1 ?_
    rw [hwg, Field.key_of_group hg]
    exact ⟨utf8 f.word, by simp⟩
  · cases hm

/-- The value of a field from three layers: a variable, a setting of the file, and the value before.
There is none if the setting does not fit. -/
def Field.layered? (f : Field) (bound? : Option Text) (setting? : Option Setting)
    (before : FieldValue) : Option FieldValue :=
  match bound?, setting? with
  | some v, _ => f.decode? (.string v)
  | none, some v => f.decode? v
  | none, none => some before

/-- A field that is settled by the file in lower case is settled by the file as it is spelled. -/
theorem layered?_of_settled {order : MapOrder} {f : Field} {entries : Tree} (hfile : PlainFile entries)
    {before x : FieldValue}
    (h : Settled f.decode? before
      (plain? (look f.path (lowerEntries order (lowerValues order entries)))) x) :
    some x = f.layered? none (plain? (spelledAt? f.path entries)) before := by
  have htable : ∀ es, spelledAt? f.path entries ≠ some (.table es) := by
    intro es hes
    cases everyKey_of_spelledAt? hfile.1 hes
  rw [look_lowered order hfile f, plain?_lowerKeys order htable] at h
  cases hv : plain? (spelledAt? f.path entries) with
  | some v =>
      rw [hv] at h
      exact h.symm.trans (decode?_lowerKeys order f v)
  | none =>
      rw [hv] at h
      exact congrArg some h

/-- `APP__LOGGING` makes the section of a file a key of its own. -/
def hidingSurroundings : Surroundings :=
  .ofLists [(utf8 "config.yml", utf8 "Name: one\nlogging:\n  Level: warn\n")]
    [(utf8 "APP__LOGGING", utf8 "x"), (utf8 "APP_LOGGING_FORMAT", utf8 "json")]

end ServiceKit.Config
