import Mathlib
import ServiceKit.Proofs.Config.Binding
import ServiceKit.Proofs.Config.References
import ServiceKit.Proofs.Config.Relevance
import ServiceKit.Proofs.Config.SettingsFile

/-!
Two loads whose variables differ in one that is unrelated to the configuration. They list the same keys
of those that matter, merge to trees that agree on what matters, and come to the same configuration with
the same error.
-/

namespace ServiceKit.Config

open Setting Text ServiceKit.Config.Tree

/-! ### One load -/

/-- Layers as a load has them, with sections open that are no keys of their own. -/
structure OpenLayers (opened : Text → Bool) (l : Layers) : Prop where
  overrides : OpenTexts opened l.overrides
  file : everyEntry isLowerKey l.file = true
  group : ∀ k, opened k = true → isGroup k = true
  unlisted : ∀ k, opened k = true → k ∉ l.keys

namespace OpenLayers

variable {opened : Text → Bool} {l l' : Layers}

theorem not_text (hl : OpenLayers opened l) {k : Text} (hopen : opened k = true) (s : Text) :
    Keyed.find? k l.overrides ≠ some (.string s) :=
  hl.overrides.levels 0 k s hopen

theorem filter_keys (hl : OpenLayers opened l) (hl' : OpenLayers opened l') (hfile : l.file = l'.file)
    (h : DeepAgree opened l.overrides l'.overrides) :
    l.keys.filter (matters opened) = l'.keys.filter (matters opened) := by
  rw [Layers.keys, Layers.keys, ← hfile]
  refine filter_levelKeys_congr ?_ (.inl rfl) l.file hl.file
  exact filter_levelKeys_agree hl.group _ _ hl.overrides hl'.overrides h rfl

theorem get?_eq (hl : OpenLayers opened l) (hl' : OpenLayers opened l') (hfile : l.file = l'.file)
    (h : Agree opened l.overrides l'.overrides) {κ : Text} (hκ : κ ∈ l.keys)
    (hm : matters opened κ = true) : l.get? κ = l'.get? κ := by
  have hlower := Layers.lower_of_mem_keys hκ
  rcases slot_of_isRelevant (pathOf_ne_nil κ) hm with ⟨p, r, hp, hpath⟩ | ⟨k, hopen, hpath⟩
  · have hlook : look (pathOf κ) l.overrides = look (pathOf κ) l'.overrides := by
      rw [hpath, look_append hp.ne_nil, look_append hp.ne_nil, h p hp]
    have hhides : hides (pathOf κ) l.overrides = hides (pathOf κ) l'.overrides := by
      rw [hpath]
      cases hp with
      | upper hk hopen => exact hides_cons_congr (h _ (.upper hk hopen)) r
      | inner hk hopen hx =>
          rw [List.cons_append, List.cons_append, hides_cons hl.overrides.texts (hl.not_text hopen),
            hides_cons hl'.overrides.texts (hl'.not_text hopen)]
          exact hides_cons_congr (h _ (.inner hk hopen hx)) _
    rw [Layers.get?, Layers.get?, hlower, hl.overrides.texts.at?_eq_look,
      hl'.overrides.texts.at?_eq_look, hlook, hhides, hfile]
  · have hkey : κ = k := by
      obtain ⟨-, -, -, hgroup⟩ := isGroup_upper (hl.group k hopen)
      exact split_injective 0x2E (hpath.trans hgroup.symm)
    exact absurd (hkey ▸ hκ) (hl.unlisted k hopen)

end OpenLayers

/-! ### Merging -/

/-- Keys that do not matter may be left out of a merge that comes to an end. -/
theorem Layers.mergeKeys_filter {opened : Text → Bool} {l : Layers} {keys : List Text} {t u t' : Tree}
    (htu : Agree opened t u) (h : l.mergeKeys keys t = .ok t') :
    ∃ u', l.mergeKeys (keys.filter (matters opened)) u = .ok u' ∧ Agree opened t' u' := by
  induction keys generalizing t u with
  | nil =>
      cases h
      exact ⟨u, rfl, htu⟩
  | cons key keys ih =>
      rw [mergeKeys] at h
      cases hm : matters opened key with
      | true =>
          rw [List.filter_cons_of_pos hm, mergeKeys]
          cases hget : l.get? key with
          | error d =>
              rw [hget] at h
              cases h
          | ok o =>
              rw [hget] at h
              cases o with
              | none => exact ih htu h
              | some v => exact ih (htu.put v (pathOf key)) h
      | false =>
          -- this key may be one at which the merge fails, so there is no converse
          rw [List.filter_cons_of_neg (by simp [hm])]
          split at h
          · cases h
          · exact ih htu h
          · rename_i v _
            exact ih ((agree_put_of_not hm v t).trans htu) h

theorem Layers.mergeKeys_congr {l l' : Layers} {keys : List Text}
    (h : ∀ κ ∈ keys, l.get? κ = l'.get? κ) (t : Tree) : l.mergeKeys keys t = l'.mergeKeys keys t := by
  induction keys generalizing t with
  | nil => rfl
  | cons key keys ih =>
      have hrest := ih fun κ hκ => h κ (List.mem_cons_of_mem key hκ)
      rw [mergeKeys, mergeKeys, h key List.mem_cons_self]
      split
      · rfl
      · exact hrest t
      · exact hrest _

/-- Is a section a level with its keys in order, if it is there at all? -/
def IsOrdered (k : Text) (t : Tree) : Prop :=
  Keyed.find? k t = none ∨ ∃ m, Keyed.find? k t = some (.map m) ∧ Keyed.Sorted m

theorem IsOrdered.below {k : Text} {t : Tree} (h : IsOrdered k t) :
    Keyed.Sorted (below (Keyed.find? k t)) := by
  rcases h with hnone | ⟨m, hm, hsorted⟩
  · rw [hnone]
    exact List.Pairwise.nil
  · rw [hm]
    exact hsorted

namespace OpenLayers

variable {opened : Text → Bool} {l l' : Layers}

/-- Two loads that agree on what matters in the overrides agree on it in what they merge to. -/
theorem agree_merged (hl : OpenLayers opened l) (hl' : OpenLayers opened l') (hfile : l.file = l'.file)
    (h : DeepAgree opened l.overrides l'.overrides) {t t' : Tree} (ht : l.merged = .ok t)
    (ht' : l'.merged = .ok t') : Agree opened t t' := by
  -- both merges are compared with the one over the keys that matter, which is the same for both
  have hrefl : Agree opened [] [] := fun _ _ => rfl
  obtain ⟨u, hu, htu⟩ := Layers.mergeKeys_filter hrefl ht
  obtain ⟨u', hu', htu'⟩ := Layers.mergeKeys_filter hrefl ht'
  have hget : ∀ κ ∈ l.keys.filter (matters opened), l.get? κ = l'.get? κ := by
    intro κ hκ
    obtain ⟨hκ, hm⟩ := List.mem_filter.mp hκ
    exact hl.get?_eq hl' hfile h.agree hκ hm
  rw [Layers.mergeKeys_congr hget, hl.filter_keys hl' hfile h, hu'] at hu
  cases hu
  exact htu.trans htu'.symm

theorem ordered_merged (hl : OpenLayers opened l) {k : Text} (hopen : opened k = true) {t : Tree}
    (ht : l.merged = .ok t) : IsOrdered k t := by
  refine Layers.mergeKeys_preserves ?_ (.inl rfl) ht
  intro κ hκ v u _ hu
  -- the section is no key itself, so every key goes on below it or stands apart
  have hgroup := (isGroup_upper (hl.group k hopen)).2.2.2
  rcases path_cases [k] (pathOf κ) with ⟨r, hr⟩ | ⟨r, hr, hpath⟩ | hapart
  · have hself := eq_of_prefix_singleton (pathOf_ne_nil κ) ⟨r, hr.symm⟩
    have hkey : κ = k := split_injective 0x2E (hself.trans hgroup.symm)
    exact absurd (hkey ▸ hκ) (hl.unlisted k hopen)
  · refine .inr ⟨_, ?_, sorted_put hu.below v r⟩
    rw [hpath]
    exact look_put_level v (p := [k]) (by simp) hr u
  · have hsame := look_put_of_apart v hapart u
    rw [IsOrdered]
    change Keyed.find? k (put v (pathOf κ) u) = Keyed.find? k u at hsame
    rw [hsame]
    exact hu

end OpenLayers

/-! ### Decoding -/

theorem decodeLogging_congr (c : Log.Config) {t t' : Tree}
    (h : ∀ f : Field, f.group? = some "logging" →
      fieldSetting? (utf8 f.word) t = fieldSetting? (utf8 f.word) t') :
    decodeLogging c t = decodeLogging c t' := by
  have hlevel : fieldSetting? (utf8 "level") t = fieldSetting? (utf8 "level") t' := h .level rfl
  have hformat : fieldSetting? (utf8 "format") t = fieldSetting? (utf8 "format") t' := h .format rfl
  have houtput : fieldSetting? (utf8 "output") t = fieldSetting? (utf8 "output") t' := h .output rfl
  have hnoColor : fieldSetting? (utf8 "no_color") t = fieldSetting? (utf8 "no_color") t' :=
    h .noColor rfl
  have htimestamp : fieldSetting? (utf8 "timestamp") t = fieldSetting? (utf8 "timestamp") t' :=
    h .timestamp rfl
  have hcaller : fieldSetting? (utf8 "caller") t = fieldSetting? (utf8 "caller") t' := h .caller rfl
  have hlabel : fieldSetting? (utf8 "prefix") t = fieldSetting? (utf8 "prefix") t' := h .label rfl
  simp only [decodeLogging, decodeText, decodeFlag, hlevel, hformat, houtput, hnoColor, htimestamp,
    hcaller, hlabel]

theorem decodeFormat_congr (o : FormatOptions) {t t' : Tree}
    (h : ∀ f : Field, f.group? = some "format" →
      fieldSetting? (utf8 f.word) t = fieldSetting? (utf8 f.word) t') :
    decodeFormat o t = decodeFormat o t' := by
  have htrim : fieldSetting? (utf8 "trim") t = fieldSetting? (utf8 "trim") t' := h .trim rfl
  have hlowercase : fieldSetting? (utf8 "lowercase") t = fieldSetting? (utf8 "lowercase") t' :=
    h .lowercase rfl
  simp only [decodeFormat, decodeFlag, htrim, hlowercase]

structure OpenTree (opened : Text → Bool) (t : Tree) : Prop where
  lower : everyEntry isLowerKey t = true
  ordered : ∀ k, opened k = true → IsOrdered k t

theorem IsOrdered.decodeGroup {name : String} {t : Tree} (h : IsOrdered (utf8 name) t)
    (hfind : fieldSetting? (utf8 name) t = Keyed.find? (utf8 name) t) :
    Config.decodeGroup name t = .ok (Tree.below (Keyed.find? (utf8 name) t)) := by
  unfold Config.decodeGroup
  rw [hfind]
  rcases h with hnone | ⟨m, hm, -⟩
  · rw [hnone]
    rfl
  · rw [hm]
    rfl

section

variable {opened : Text → Bool} {t t' : Tree}

/-- In an open section two trees have the same setting for every field. -/
theorem Agree.fieldSetting?_below (h : Agree opened t t') {g : Text} (hg : g ∈ upperNames)
    (hopen : opened g = true) (ho : IsOrdered g t) (ho' : IsOrdered g t') {f : Field}
    (hf : f.group?.map utf8 = some g) :
    fieldSetting? (utf8 f.word) (below (Keyed.find? g t)) =
      fieldSetting? (utf8 f.word) (below (Keyed.find? g t')) := by
  have hfind : ∀ x, sameLetters x (utf8 f.word) = true →
      Keyed.find? x (below (Keyed.find? g t)) = Keyed.find? x (below (Keyed.find? g t')) := by
    intro x hx
    have hword : isWordIn g x = true := by
      rw [isWordIn, List.any_eq_true]
      exact ⟨f, by cases f <;> decide, by simp [hf, hx]⟩
    exact h [g, x] (.inner hg hopen hword)
  -- the first of several spellings counts, so the spellings have to be the same in the same order
  have hfilter := ho.below.filter_ext ho'.below (p := fun x => sameLetters x (utf8 f.word)) hfind
  unfold fieldSetting?
  rw [hfind _ (by simp [sameLetters]), ← List.head?_filter, ← List.head?_filter, hfilter]

theorem Agree.settleGroup_eq {α : Type} {now : α} {decode : α → Tree → α × List Mismatch} {g : String}
    (h : Agree opened t t') (ht : OpenTree opened t) (ht' : OpenTree opened t')
    (hg : utf8 g ∈ upperNames) (hplain : isPlainLower (utf8 g) = true) (hlong : 0x73 ∉ utf8 g)
    (hdecode : ∀ m m', (∀ f : Field, f.group? = some g →
      fieldSetting? (utf8 f.word) m = fieldSetting? (utf8 f.word) m') → decode now m = decode now m') :
    settleGroup now decode (decodeGroup g t) = settleGroup now decode (decodeGroup g t') := by
  have hfind := fieldSetting?_of_lower hplain hlong ht.lower
  have hfind' := fieldSetting?_of_lower hplain hlong ht'.lower
  cases hopen : opened (utf8 g) with
  | false =>
      have hsame : Keyed.find? (utf8 g) t = Keyed.find? (utf8 g) t' := h [utf8 g] (.upper hg hopen)
      unfold decodeGroup
      rw [hfind, hfind', hsame]
  | true =>
      have ho := ht.ordered _ hopen
      have ho' := ht'.ordered _ hopen
      rw [ho.decodeGroup hfind, ho'.decodeGroup hfind']
      refine hdecode _ _ fun f hf => h.fieldSetting?_below hg hopen ho ho' ?_
      rw [hf]
      rfl

/-- Trees that agree on what matters are decoded alike. -/
theorem Agree.decodeService_eq (h : Agree opened t t') (ht : OpenTree opened t)
    (ht' : OpenTree opened t') (hgroup : ∀ k, opened k = true → isGroup k = true) (c : ServiceConfig) :
    decodeService c t = decodeService c t' := by
  have htop : ∀ w : String, isGroup (utf8 w) = false → utf8 w ∈ upperNames →
      isPlainLower (utf8 w) = true → 0x73 ∉ utf8 w →
      fieldSetting? (utf8 w) t = fieldSetting? (utf8 w) t' := by
    intro w hw hmem hplain hlong
    have hclosed : opened (utf8 w) = false := by
      by_contra hopen
      rw [hgroup _ (by simpa using hopen)] at hw
      cases hw
    rw [fieldSetting?_of_lower hplain hlong ht.lower, fieldSetting?_of_lower hplain hlong ht'.lower]
    exact h [utf8 w] (.upper hmem hclosed)
  have hname := htop "name" (by decide) (by decide) (by decide) (by decide)
  have henvironment := htop "environment" (by decide) (by decide) (by decide) (by decide)
  have hdebug := htop "debug" (by decide) (by decide) (by decide) (by decide)
  have hlogging := h.settleGroup_eq ht ht' (by decide) (by decide) (by decide)
    fun m m' => decodeLogging_congr c.logging
  have hformat := h.settleGroup_eq ht ht' (by decide) (by decide) (by decide)
    fun m m' => decodeFormat_congr c.format
  unfold decodeService
  rw [hlogging, hformat]
  simp only [decodeText, decodeFlag, hname, henvironment, hdebug]

end

/-! ### Loads -/

theorem openLayers_layersOf (s : Surroundings) (service : Text) (o : LoadOptions)
    {opened : Text → Bool} (hgroup : ∀ k, opened k = true → isGroup k = true)
    (hunlisted : ∀ k, opened k = true → k ∉ (layersOf s service o).keys) :
    OpenLayers opened (layersOf s service o) := by
  have hparts : ∀ w ∈ (variablesOf s service o).flatMap (Layers.writes o.envLead), ∀ k ∈ w.1,
      isPart k = true := by
    intro w hw k hk
    obtain ⟨e, -, hw⟩ := List.mem_flatMap.mp hw
    obtain ⟨name, key, -, -, rfl⟩ := Layers.mem_writes hw
    simpa [isPart] using not_mem_of_mem_split hk
  refine ⟨⟨?_, ?_, ?_, ?_, ?_⟩, ?_, hgroup, hunlisted⟩
  · rw [overrides_layersOf]
    exact onlyTexts_putTexts Layers.writes_ne_nil
  · rw [overrides_layersOf]
    exact sortedTree_nil.putTexts Layers.writes_ne_nil
  · exact Layers.lower_bind o.envLead (variablesOf s service o) _
  · rw [overrides_layersOf]
    exact everyEntry_putTexts hparts rfl
  · intro n k v hopen h
    have hmem := mem_levelKeys_of_deep n h []
    rw [(isGroup_upper (hgroup k hopen)).2.2.1] at hmem
    exact hunlisted k hopen (mem_levelKeys_of_mem hmem [] _)
  · rw [file_layersOf]
    cases hfile : fileOf s service o with
    | error e => rfl
    | ok file =>
        rw [fileOf_eq hfile]
        exact SettingsFile.everyEntry_isLowerKey_lowered _

/-- The sections that neither of two loads has as a key of its own. -/
def isOpen (l l' : Layers) (k : Text) : Bool :=
  isGroup k && !l.keys.contains k && !l'.keys.contains k

theorem isOpen_iff {l l' : Layers} {k : Text} :
    isOpen l l' k = true ↔ isGroup k = true ∧ k ∉ l.keys ∧ k ∉ l'.keys := by
  simp [isOpen, and_assoc]

/-- Overrides from variables that are alike but for one that is not related agree. -/
theorem deepAgree_layersOf {s s' : Surroundings} {service name : Text} {o : LoadOptions}
    {opened : Text → Bool}
    (henv : (variablesOf s service o).only (· != name) = (variablesOf s' service o).only (· != name))
    (hname : ∀ k ∈ Layers.boundName? o.envLead name, ∀ w ∈ keyVariants k,
      isRelated opened (pathOf w) = false) :
    DeepAgree opened (layersOf s service o).overrides (layersOf s' service o).overrides := by
  have hdrop : ∀ e : Text × Text, (e.1 != name) = false → ∀ w ∈ Layers.writes o.envLead e,
      isRelated opened w.1 = false := by
    intro e he w hw
    have hen : e.1 = name := by simpa using he
    obtain ⟨k, key, hk, hkey, rfl⟩ := Layers.mem_writes hw
    exact hname k (hen ▸ hk) key hkey
  have hrefl : DeepAgree opened [] [] := fun _ _ _ => rfl
  have h := deepAgree_filter (variablesOf s service o) (fun e _ => hdrop e) hrefl
  have h' := deepAgree_filter (variablesOf s' service o) (fun e _ => hdrop e) hrefl
  rw [overrides_layersOf, overrides_layersOf]
  refine h.trans ?_
  change DeepAgree opened (putTexts (((variablesOf s service o).only (· != name)).flatMap _) []) _
  rw [henv]
  exact h'.symm

/-- Loads of the same file, with overrides that agree, come to the same if both come to an end. -/
theorem outcome_eq {s s' : Surroundings} {service : Text} {o : LoadOptions} {c : ServiceConfig}
    (hends : (loadConfig s service o c).ends = true)
    (hends' : (loadConfig s' service o c).ends = true)
    (hfile : fileOf s service o = fileOf s' service o)
    (hconfig : configFileOf s service o = configFileOf s' service o)
    (hagree : DeepAgree (isOpen (layersOf s service o) (layersOf s' service o))
      (layersOf s service o).overrides (layersOf s' service o).overrides) :
    outcome service c (gather s service o).value = outcome service c (gather s' service o).value := by
  cases hread : fileOf s service o with
  | error mistake =>
      have hread' := hfile ▸ hread
      rw [gather_value, gather_value, hread, hread', hconfig]
  | ok file =>
      have hread' := hfile ▸ hread
      obtain ⟨t, ht, hvalue⟩ := merged_of_ends hends hread
      obtain ⟨t', ht', hvalue'⟩ := merged_of_ends hends' hread'
      have hgroup : ∀ k, isOpen (layersOf s service o) (layersOf s' service o) k = true →
          isGroup k = true := fun k hk => (isOpen_iff.mp hk).1
      have hl := openLayers_layersOf s service o hgroup fun k hk => (isOpen_iff.mp hk).2.1
      have hl' := openLayers_layersOf s' service o hgroup fun k hk => (isOpen_iff.mp hk).2.2
      have hsame : (layersOf s service o).file = (layersOf s' service o).file := by
        rw [file_layersOf, file_layersOf, hfile]
      have hdecode := (hl.agree_merged hl' hsame hagree ht ht').decodeService_eq
        ⟨Layers.lower_merged hl.overrides.texts hl.overrides.lower hl.file ht,
          fun k hk => hl.ordered_merged hk ht⟩
        ⟨Layers.lower_merged hl'.overrides.texts hl'.overrides.lower hl'.file ht',
          fun k hk => hl'.ordered_merged hk ht'⟩ hgroup c
      rw [hvalue, hvalue', outcome, outcome, hdecode]

/-- A variable that is not related to the configuration changes neither what a load gives nor its
error. -/
theorem loadConfig_unrelated {s s' : Surroundings} {service : Text} {o : LoadOptions}
    {c : ServiceConfig} {before after : Environment} {name value : Text}
    (hs : s.environment = before ++ after)
    (hs' : s' = { s with environment := before ++ (name, value) :: after })
    (haccess : ∀ a, o.access = some a → a.Adds)
    (hends : (loadConfig s service o c).ends = true)
    (hends' : (loadConfig s' service o c).ends = true)
    (hfile : name ∉ referencesOf s service o)
    (hname : ∀ k ∈ Layers.boundName? o.envLead name, ∀ w ∈ keyVariants k,
      isRelated (isOpen (layersOf s service o) (layersOf s' service o)) (pathOf w) = false) :
    (loadConfig s' service o c).value = (loadConfig s service o c).value ∧
      (loadConfig s' service o c).error = (loadConfig s service o c).error := by
  obtain ⟨files, environment, logger, ambient, order, toml⟩ := s
  simp only at hs
  subst hs hs'
  have hadds : (accessOf ⟨files, before ++ after, logger, ambient, order, toml⟩ o).Adds := by
    unfold accessOf
    cases ha : o.access with
    | none => exact Files.adds_access files order
    | some a => exact haccess a ha
  have hkeep : (name != name) = false := by simp
  have honly := Environment.only_insert (· != name) hkeep value before after
  have hread := fileOf_congr (s := ⟨files, before ++ after, logger, ambient, order, toml⟩) (o := o)
    fun n hn => Environment.find?_congr (by simpa using fun h : n = name => hfile (h ▸ hn)) honly
  have henv := only_variablesOf service hadds honly
  have hagree := deepAgree_layersOf henv.symm hname
  have houtcome := outcome_eq (c := c) hends hends' hread.symm rfl hagree
  rw [← loadConfig_outcome, ← loadConfig_outcome] at houtcome
  obtain ⟨hvalue, herror⟩ := Prod.mk.inj houtcome
  exact ⟨hvalue.symm, herror.symm⟩

/-- Surroundings with a settings file that has a section, and some variables. -/
def sectionSurroundings (env : Environment) : Surroundings :=
  Surroundings.ofLists [(utf8 "config.yml", utf8 "logging:\n  level: warn\n")] env

theorem loadConfig_unrelated_in_section :
    (loadConfig (sectionSurroundings [(utf8 "APP_LOGGING_FOO", utf8 "x"),
        (utf8 "APP_LOGGING_FORMAT", utf8 "json")]) (utf8 "svc") { envLead := utf8 "APP" } {}).value =
      (loadConfig (sectionSurroundings [(utf8 "APP_LOGGING_FORMAT", utf8 "json")]) (utf8 "svc")
        { envLead := utf8 "APP" } {}).value ∧
    (loadConfig (sectionSurroundings [(utf8 "APP_LOGGING_FOO", utf8 "x"),
        (utf8 "APP_LOGGING_FORMAT", utf8 "json")]) (utf8 "svc") { envLead := utf8 "APP" } {}).error =
      (loadConfig (sectionSurroundings [(utf8 "APP_LOGGING_FORMAT", utf8 "json")]) (utf8 "svc")
        { envLead := utf8 "APP" } {}).error :=
  loadConfig_unrelated
    (show _ = [] ++ [(utf8 "APP_LOGGING_FORMAT", utf8 "json")] from rfl) rfl
    (fun _ h => by cases h) (by decide +kernel) (by decide +kernel) (by decide +kernel)
    (by decide +kernel)

/-- A load with the variables that start with one word. -/
def appLoad (files : List (Text × Text)) (configFile : Text) (env : Environment) :
    Loaded ServiceConfig :=
  loadConfig (Surroundings.ofLists files env) (utf8 "svc")
    { envLead := utf8 "APP", configFile := configFile } {}

/-- That no field goes by a key of a variable is not enough. The variable may have the name of a section,
set something in a section that is a text otherwise, be referred to by the settings file, or change a
list of the file into what is searched with a negative index. -/
theorem loadConfig_changed_by_other_keys :
    (∀ name ∈ [utf8 "LOGGING", utf8 "LOGGING_FOO", utf8 "X", utf8 "S_FOO"],
      ∀ w ∈ keyVariants name, ∀ f ∈ Field.all, w ≠ f.key) ∧
    ((appLoad [] [] []).error.isNone ∧
      (appLoad [] [] [(utf8 "APP_LOGGING", utf8 "x")]).error.isSome) ∧
    ((appLoad [] [] [(utf8 "APP_LOGGING", utf8 "x")]).error.isSome ∧
      (appLoad [] [] [(utf8 "APP_LOGGING", utf8 "x"), (utf8 "APP_LOGGING_FOO", utf8 "y")]).error.isNone) ∧
    ((appLoad [(utf8 "s.env", utf8 "logging.level=$APP_X\n")] (utf8 "s.env") []).value.logging.level = [] ∧
      (appLoad [(utf8 "s.env", utf8 "logging.level=$APP_X\n")] (utf8 "s.env")
        [(utf8 "APP_X", utf8 "warn")]).value.logging.level = utf8 "warn") ∧
    (appLoad [(utf8 "config.yml", utf8 "s: [a]\n")] []
        [(utf8 "APP__S_-1", utf8 "x"), (utf8 "APP_S", utf8 "y")]).ends = true ∧
      (appLoad [(utf8 "config.yml", utf8 "s: [a]\n")] []
        [(utf8 "APP__S_-1", utf8 "x"), (utf8 "APP_S", utf8 "y"), (utf8 "APP_S_FOO", utf8 "z")]).ends =
          false := by
  decide +kernel

end ServiceKit.Config
