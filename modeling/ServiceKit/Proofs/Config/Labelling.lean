import Mathlib
import ServiceKit.Proofs.Config.Appending
import ServiceKit.Proofs.Config.Completion
import ServiceKit.Proofs.Config.Precedence

/-!
Where the label of lines comes from: the variable for it, else the settings file, else it stays as it
was. Unlike for fields in general, names and keys need not be ASCII, and other variables may stand on
the way to the label or below it: a load that such a variable disturbs has an error.
-/

namespace ServiceKit

open Setting Text

namespace Environment

/-- A variable that is set parts the environment. -/
theorem exists_split {name value : Text} {env : Environment} (h : find? name env = some value) :
    ∃ before after, env = before ++ (name, value) :: after ∧
      (env.dropWhile fun e => e.1 != name).tail = after := by
  induction env with
  | nil => cases h
  | cons e env ih =>
      rw [find?] at h
      split at h
      next hname =>
        refine ⟨[], env, ?_, ?_⟩
        · rw [hname, ← Option.some.inj h]
          rfl
        · rw [List.dropWhile_cons_of_neg (by simp [hname])]
          rfl
      next hname =>
        obtain ⟨before, after, henv, hafter⟩ := ih h
        refine ⟨e :: before, after, ?_, ?_⟩
        · rw [henv]
          rfl
        · rw [List.dropWhile_cons_of_pos (by simpa using Ne.symm hname)]
          exact hafter

theorem ne_of_mem_after {name value : Text} {before after : Environment}
    (h : ((before ++ (name, value) :: after).map Prod.fst).Nodup) : ∀ e ∈ after, e.1 ≠ name := by
  intro e he hname
  rw [List.map_append, List.map_cons] at h
  have hnot := (List.nodup_cons.mp (List.nodup_append.mp h).2.1).1
  exact hnot (List.mem_map.mpr ⟨e, he, hname⟩)

end Environment

namespace Config

open ServiceKit.Config.Tree

/-! ### Decoding the label -/

theorem decodeService_label {c c' : ServiceConfig} {t : Tree} (ht : everyEntry isLowerKey t = true)
    (h : decodeService c t = (c', [])) :
    (∀ s, Keyed.find? (utf8 "logging") t ≠ some (.string s)) ∧
      Settled (fun v => (textOf? v).map some) c.logging.label (given? (look Field.label.path t))
        c'.logging.label := by
  obtain ⟨-, -, -, hlogging, -⟩ := decodeService_ok h
  have hgroup : fieldSetting? (utf8 "logging") t = Keyed.find? (utf8 "logging") t :=
    fieldSetting?_of_lower (by decide) (by decide) ht
  obtain ⟨htext, hl⟩ := settleGroup_of_find? ht hgroup hlogging
  obtain ⟨-, -, -, -, -, -, hlabel⟩ := decodeLogging_ok hl
  have hword : fieldSetting? (utf8 "prefix") (below (Keyed.find? (utf8 "logging") t)) =
      look Field.label.path t := fieldSetting?_of_lower (by decide) (by decide) (everyEntry_below ht)
  exact ⟨htext, hword ▸ settle_label hlabel⟩

theorem not_isLevel_of_settled {x now : Option Text} {t : Tree}
    (h : Settled (fun v => (textOf? v).map some) now (given? (look Field.label.path t)) x) :
    ¬Layers.IsLevel Field.label.path t := by
  rintro ⟨m, hm⟩
  rw [hm] at h
  cases h

/-! ### Variables -/

/-- No variable but one has the key of the label. -/
def NoOtherLabel (lead name : Text) (env : Environment) : Prop :=
  ∀ e ∈ env, e.1 ≠ name → ∀ k ∈ Layers.boundName? lead e.1, Field.label.key ∉ keyVariants k

instance (lead name : Text) (env : Environment) : Decidable (NoOtherLabel lead name env) :=
  inferInstanceAs (Decidable (∀ e ∈ env, e.1 ≠ name → ∀ k ∈ Layers.boundName? lead e.1,
    Field.label.key ∉ keyVariants k))

/-- No variable that comes after one has the key of the section of the label. -/
def NoLaterSection (lead name : Text) (env : Environment) : Prop :=
  ∀ e ∈ (env.dropWhile fun e => e.1 != name).tail, ∀ k ∈ Layers.boundName? lead e.1,
    utf8 "logging" ∉ keyVariants k

instance (lead name : Text) (env : Environment) : Decidable (NoLaterSection lead name env) :=
  inferInstanceAs (Decidable (∀ e ∈ (env.dropWhile fun e => e.1 != name).tail,
    ∀ k ∈ Layers.boundName? lead e.1, utf8 "logging" ∉ keyVariants k))

/-- The label is left to one variable. -/
structure OwnsLabel (lead name : Text) (env : Environment) : Prop where
  distinct : (env.map Prod.fst).Nodup
  own : ∃ k ∈ Layers.boundName? lead name, 0x2E ∉ k ∧ Field.label.key ∈ keyVariants k
  alone : NoOtherLabel lead name env
  last : NoLaterSection lead name env

namespace OwnsLabel

variable {lead name : Text} {env : Environment}

/-- What the variable sets is there in the end, or a level with keys that go on below. -/
theorem look_of_set (h : OwnsLabel lead name env) {value : Text}
    (hset : Environment.find? name env = some value) (file : Tree) :
    look Field.label.path (({ file := file } : Layers).bind lead env).overrides = some (.string value) ∨
      ∃ m, look Field.label.path (({ file := file } : Layers).bind lead env).overrides =
        some (.map m) := by
  obtain ⟨before, after, henv, htail⟩ := Environment.exists_split hset
  obtain ⟨k, hk, hpoint, hkey⟩ := h.own
  have hlater : ∀ w ∈ after.flatMap (Layers.writes lead), ¬w.1 <+: Field.label.path := by
    intro w hw hprefix
    obtain ⟨e, he, hw⟩ := List.mem_flatMap.mp hw
    obtain ⟨n, key, hn, hvariant, rfl⟩ := Layers.mem_writes hw
    have hne := Environment.ne_of_mem_after (henv ▸ h.distinct) e he
    have hmem : e ∈ env := by
      rw [henv]
      exact List.mem_append_right before (List.mem_cons_of_mem _ he)
    rcases eq_of_prefix_pair (pathOf_ne_nil key) hprefix with hpath | hpath
    · have hsection : key = utf8 "logging" := split_injective 0x2E (hpath.trans (by decide))
      exact h.last e (htail ▸ he) n hn (hsection ▸ hvariant)
    · have hlabel : key = Field.label.key := split_injective 0x2E (hpath.trans Field.label.path_eq)
      exact h.alone e hmem hne n hn (hlabel ▸ hvariant)
  rw [Layers.bind_eq, henv, List.flatMap_append, List.flatMap_cons, putTexts_append, putTexts_append]
  apply look_putTexts_of_text Field.label.path_ne_nil hlater
  left
  rw [Field.label.path_eq]
  rw [look_putTexts (pathOf_ne_nil _) (Layers.writes_at_or_apart (e := (name, value)) hk hpoint hkey)]
  exact if_pos (Layers.mem_writes_of_mem_keyVariants (e := (name, value)) hk hkey)

theorem look_of_unset (h : OwnsLabel lead name env) (hunset : Environment.find? name env = none)
    (file : Tree) (s : Text) :
    look Field.label.path (({ file := file } : Layers).bind lead env).overrides ≠
      some (.string s) := by
  intro hlook
  rw [Layers.bind_eq] at hlook
  rcases look_putTexts_source Field.label.path_ne_nil Layers.writes_ne_nil hlook with
    ⟨s', -, hmem⟩ | ⟨m, hm, -⟩
  · obtain ⟨e, he, hw⟩ := List.mem_flatMap.mp hmem
    obtain ⟨k, key, hk, hvariant, heq⟩ := Layers.mem_writes hw
    have hlabel : key = Field.label.key :=
      split_injective 0x2E ((congrArg Prod.fst heq).symm.trans Field.label.path_eq)
    by_cases hname : e.1 = name
    · have hset := Environment.isSet_of_mem he
      rw [Environment.isSet, hname, hunset] at hset
      cases hset
    · exact h.alone e he hname k hk (hlabel ▸ hvariant)
  · cases hm

end OwnsLabel

/-! ### Two layers -/

section Unset

variable {l : Layers} {k k' : Text}

/-- Where neither variables nor the file have a value, there is none in the end, though the section may
have been hidden. -/
theorem merged_look_unset (hl : OnlyTexts l.overrides) (hk : k.lower = k) (hk' : k'.lower = k')
    (hpath : pathOf k = [k]) (hnum : ∀ i, Number.integerOf 10 k' ≠ .ok i)
    (hnone : look [k, k'] l.overrides = none) (htext : ∀ s, Keyed.find? k l.overrides ≠ some (.string s))
    (hpoint : Keyed.find? (k ++ 0x2E :: k') l.file = none)
    (htable : ∀ es, Keyed.find? k l.file ≠ some (.table es))
    (hfile : plain? (look [k, k'] l.file) = none) {t : Tree} (ht : l.merged = .ok t) :
    given? (look [k, k'] t) = none ∨ Layers.IsLevel [k, k'] t := by
  have hfrom : ∀ {u : Tree}, look [k, k'] u = look [k, k'] l.file →
      given? (look [k, k'] u) = none ∨ Layers.IsLevel [k, k'] u := by
    intro u hu
    unfold plain? at hfile
    split at hfile
    · rename_i m hm
      exact .inr ⟨m, hu.trans hm⟩
    · exact .inl (hu ▸ hfile)
  refine Layers.mergeKeys_preserves
    (P := fun u => given? (look [k, k'] u) = none ∨ Layers.IsLevel [k, k'] u) ?_ (.inl rfl) ht
  intro κ hκ v u hget hu
  have hlower := Layers.lower_of_mem_keys hκ
  rcases path_cases [k, k'] (pathOf κ) with ⟨r, hr⟩ | ⟨r, hr, he⟩ | hapart
  · rcases eq_of_prefix_pair (pathOf_ne_nil κ) ⟨r, hr.symm⟩ with hκpath | hκpath
    · -- the section as a whole, from the variables or from the file
      obtain rfl : κ = k := split_injective 0x2E (hκpath.trans hpath.symm)
      have hput : look [κ, k'] (put v (pathOf κ) u) = lookIn v [k'] := by
        rw [hκpath]
        exact look_put_append v (q := [κ]) (by simp) [k'] u
      cases hsection : Keyed.find? κ l.overrides with
      | none =>
          apply hfrom
          rw [Layers.get?_single hlower hκpath hsection] at hget
          have hv : look [κ] l.file = some v := given?_eq_some (Except.ok.inj hget)
          rw [hput, show [κ, k'] = [κ] ++ [k'] from rfl, look_append (by simp), hv]
          rfl
      | some x =>
          left
          have hat : look (pathOf κ) l.overrides = some x := by
            rw [hκpath]
            exact hsection
          rw [Layers.get?_of_look hl hlower hat] at hget
          obtain rfl : x = v := Option.some.inj (Except.ok.inj hget)
          have hbelow : lookIn x [k'] = look [κ, k'] l.overrides := by
            rw [look_cons (by simp), hsection]
            rfl
          rw [hput, hbelow, hnone]
          rfl
    · apply hfrom
      rw [Layers.get?_pair hl hlower hk hk' hκpath hnum htext hnone hpoint htable] at hget
      rw [hκpath, look_put_self v (by simp)]
      exact (given?_eq_some (Except.ok.inj hget)).symm
  · right
    rw [he]
    exact ⟨_, look_put_level v (by simp) hr u⟩
  · rwa [Layers.IsLevel, look_put_of_apart v hapart]

end Unset

/-- The text that a settings file has for the label. -/
def fileLabel? (file : Tree) : Option Text := (plain? (look Field.label.path file)).bind textOf?

theorem label_of_settled {x now : Option Text} {o : Option Setting}
    (h : Settled (fun v => (textOf? v).map some) now o x) : x = (o.bind textOf?).or now := by
  cases o with
  | none => exact h
  | some v =>
      obtain ⟨s, hs, rfl⟩ := Option.map_eq_some_iff.mp h
      rw [Option.bind_some, hs, Option.some_or]

section Layered

variable {l : Layers} {t : Tree}

/-- Without a variable, the label that is decoded is the one of the file. -/
theorem given_label_of_unset (hl : OnlyTexts l.overrides) (hfile : everyEntry isLowerKey l.file = true)
    (hnone : look Field.label.path l.overrides = none)
    (htext : ∀ s, Keyed.find? (utf8 "logging") l.overrides ≠ some (.string s))
    (hpoint : Keyed.find? Field.label.key l.file = none)
    (hhidden : (plain? (look Field.label.path l.file)).isSome = true →
      isHidden l (utf8 "logging") = false)
    (ht : l.merged = .ok t) (hlevel : ¬Layers.IsLevel Field.label.path t) :
    given? (look Field.label.path t) = plain? (look Field.label.path l.file) := by
  obtain ⟨hword, hnumber⟩ := Field.label.word_plain
  have hword := lower_of_isPlainLower hword
  have htable : ∀ es, Keyed.find? (utf8 "logging") l.file ≠ some (.table es) := by
    intro es h
    cases everyKey_of_find? hfile h
  cases hplain : plain? (look Field.label.path l.file) with
  | some v =>
      obtain ⟨hsome, hmap, hgiven⟩ := plain?_eq_some hplain
      have hfrom : Layers.FromFile l Field.label.path :=
        fromFile_pair hl (by decide) hword (by decide) hnumber hnone htext
          (hhidden (Option.isSome_of_eq_some hplain)) hpoint htable
      rcases Layers.merged_look_listed Field.label.path_ne_nil hfrom
        (given_of_look hmap hgiven hsome _) ht with hlook | h
      · rw [hlook, hsome, hgiven]
      · exact absurd h hlevel
  | none =>
      rcases merged_look_unset hl (by decide) hword (by decide) hnumber hnone htext hpoint htable
        hplain ht with hgiven | h
      · exact hgiven
      · exact absurd h hlevel

variable {lead name : Text} {env : Environment} {file : Tree}

/-- The label that is decoded: the variable's value, else the one of the file. -/
theorem given_label (hl : l = ({ file := file } : Layers).bind lead env)
    (hvars : OwnsLabel lead name env) (hfile : everyEntry isLowerKey file = true)
    (hpoint : Keyed.find? Field.label.key file = none)
    (hhidden : Environment.find? name env = none → (plain? (look Field.label.path file)).isSome = true →
      isHidden l (utf8 "logging") = false)
    (ht : l.merged = .ok t) (htext : ∀ s, Keyed.find? (utf8 "logging") t ≠ some (.string s))
    (hlevel : ¬Layers.IsLevel Field.label.path t) :
    given? (look Field.label.path t) =
      ((Environment.find? name env).map .string).or (plain? (look Field.label.path file)) := by
  subst hl
  have honly := Layers.onlyTexts_bind lead env file
  have hover : (({ file := file } : Layers).bind lead env).file = file := by rw [Layers.bind_eq]
  have hbound : ∀ m, look Field.label.path (({ file := file } : Layers).bind lead env).overrides ≠
      some (.map m) := by
    intro m hm
    exact hlevel (Layers.merged_look_bound_level (by decide) hm ht)
  cases hset : Environment.find? name env with
  | some value =>
      rcases hvars.look_of_set hset file with hlook | ⟨m, hlook⟩
      · have hfound : look Field.label.path t = some (.string value) :=
          Layers.merged_look_bound (by decide) hlook ht
        rw [hfound]
        rfl
      · exact absurd hlook (hbound m)
  | none =>
      have hnone : look Field.label.path (({ file := file } : Layers).bind lead env).overrides =
          none := by
        refine Option.eq_none_iff_forall_ne_some.mpr fun v hlook => ?_
        rcases honly _ v Field.label.path_ne_nil hlook with ⟨s, rfl⟩ | ⟨m, rfl⟩
        · exact hvars.look_of_unset hset file s hlook
        · exact hbound m hlook
      have hsection : ∀ s, Keyed.find? (utf8 "logging")
          (({ file := file } : Layers).bind lead env).overrides ≠ some (.string s) := by
        intro s hs
        exact htext s (Layers.merged_look_bound (r := []) (by decide) hs ht)
      have hgiven := given_label_of_unset honly (hover.symm ▸ hfile) hnone hsection
        (hover.symm ▸ hpoint) (hover.symm ▸ hhidden hset) ht hlevel
      rw [hgiven, hover]
      rfl

end Layered

/-! ### Loads -/

/-- What the file of variables of a load assigns, if one is found. -/
def assignmentsOf (s : Surroundings) (service : Text) (o : LoadOptions) :
    Except Text (List (Text × Text)) :=
  if (isThere (accessOf s o) (envFileOf s service o)).1 then assignedOf s service o else .ok []

section Loads

variable {s : Surroundings} {service : Text} {o : LoadOptions}

theorem nodup_assignmentsOf {entries : List (Text × Text)}
    (h : assignmentsOf s service o = .ok entries) : (entries.map Prod.fst).Nodup := by
  unfold assignmentsOf at h
  split at h
  · exact Files.nodup_assigned h
  · cases h
    exact List.nodup_nil

theorem variablesOf_of_assignments (haccess : o.access = none) {entries : List (Text × Text)}
    (h : assignmentsOf s service o = .ok entries) :
    variablesOf s service o = s.environment.addMissing entries := by
  unfold assignmentsOf at h
  split at h
  · rename_i hthere
    rw [variablesOf_of_there hthere, attemptOf_eq haccess, h]
    rfl
  · rename_i hthere
    cases h
    rw [Environment.addMissing_nil]
    exact if_neg hthere

/-- The label of a configuration that is loaded without an error. -/
theorem load_label {c : ServiceConfig} {name : Text} {file : Tree}
    (hfile : fileOf s service o = .ok file)
    (hvars : OwnsLabel o.envLead name (variablesOf s service o))
    (hpoint : Keyed.find? Field.label.key file = none)
    (hhidden : Environment.find? name (variablesOf s service o) = none →
      (plain? (look Field.label.path file)).isSome = true →
        isHidden (layersOf s service o) (utf8 "logging") = false)
    (hok : (load s service o c).error = none) :
    (load s service o c).value.logging.label =
      (Environment.find? name (variablesOf s service o)).or
        ((fileLabel? file).or c.logging.label) := by
  have hlayers : layersOf s service o =
      ({ file := file } : Layers).bind o.envLead (variablesOf s service o) := by
    rw [layersOf, hfile]
    rfl
  have hlower : everyEntry isLowerKey file = true := by
    rw [fileOf_eq hfile]
    exact SettingsFile.everyEntry_isLowerKey_lowered _
  obtain ⟨-, file', t, d, -, hmerged, hdecoded, hvalue, -⟩ := load_ok hok
  have hmergedLower : everyEntry isLowerKey t = true := by
    rw [hlayers] at hmerged
    exact Layers.lower_merged (Layers.onlyTexts_bind _ _ file) (Layers.lower_bind _ _ file)
      (by rwa [Layers.bind_eq]) hmerged
  obtain ⟨htext, hsettled⟩ := decodeService_label hmergedLower hdecoded
  have hgiven := given_label hlayers hvars hlower hpoint hhidden hmerged htext
    (not_isLevel_of_settled hsettled)
  have hlabel : (complete service d).logging.label = d.logging.label := by
    rw [complete_eq]
  rw [hvalue, hlabel, label_of_settled hsettled, hgiven, ← Option.or_assoc]
  cases Environment.find? name (variablesOf s service o) <;> rfl

end Loads

end Config

end ServiceKit
