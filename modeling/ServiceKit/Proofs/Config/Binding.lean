import Mathlib
import ServiceKit.Proofs.Config.Tree

/-!
Variables bound one after the other. Each of them sets all its keys, and what it sets stays until a
later variable has a name that is the same, leads this one up to an underscore, or is led by it.
-/

namespace ServiceKit.Config.Layers

open Text ServiceKit.Config.Tree

/-- What one variable puts into the overrides. -/
def writes (lead : Text) (e : Text × Text) : List (List Text × Text) :=
  match boundName? lead e.1 with
  | some name => (keyVariants name).map fun w => (pathOf w, e.2)
  | none => []

theorem mem_writes {lead : Text} {e : Text × Text} {w : List Text × Text} (h : w ∈ writes lead e) :
    ∃ name key, boundName? lead e.1 = some name ∧ key ∈ keyVariants name ∧ w = (pathOf key, e.2) := by
  rw [writes] at h
  split at h
  · rename_i name hname
    obtain ⟨key, hkey, rfl⟩ := List.mem_map.mp h
    exact ⟨name, key, hname, hkey, rfl⟩
  · cases h

theorem writes_ne_nil {lead : Text} {env : Environment} :
    ∀ w ∈ env.flatMap (writes lead), w.1 ≠ [] := by
  intro w hw
  obtain ⟨e, -, hw⟩ := List.mem_flatMap.mp hw
  obtain ⟨-, key, -, -, rfl⟩ := mem_writes hw
  exact pathOf_ne_nil key

theorem foldl_set (v : Text) {keys : List Text} (hkeys : ∀ key ∈ keys, key.lower = key) (l : Layers) :
    keys.foldl (fun l key => l.set key (.string v)) l =
      { l with overrides := putTexts (keys.map fun key => (pathOf key, v)) l.overrides } := by
  induction keys generalizing l with
  | nil => rfl
  | cons key keys ih =>
      rw [List.foldl_cons, ih fun k hk => hkeys k (List.mem_cons_of_mem key hk), set,
        hkeys key List.mem_cons_self]
      rfl

theorem bindVariable_eq (lead : Text) (l : Layers) (e : Text × Text) :
    bindVariable lead l e = { l with overrides := putTexts (writes lead e) l.overrides } := by
  rw [bindVariable, writes]
  cases boundName? lead e.1 with
  | none => rfl
  | some name => exact foldl_set e.2 (fun key hkey => lower_of_mem_keyVariants hkey) l

/-- Binding puts the keys of all variables into the overrides and leaves the file alone. -/
theorem bind_eq (lead : Text) (env : Environment) (l : Layers) :
    l.bind lead env =
      { l with overrides := putTexts (env.flatMap (writes lead)) l.overrides } := by
  induction env generalizing l with
  | nil => rfl
  | cons e env ih =>
      have hcons : l.bind lead (e :: env) = (bindVariable lead l e).bind lead env := rfl
      rw [hcons, ih, bindVariable_eq]
      simp only [putTexts, List.flatMap_cons, List.foldl_append]

theorem onlyTexts_bind (lead : Text) (env : Environment) (file : Tree) :
    OnlyTexts (({ file := file } : Layers).bind lead env).overrides := by
  rw [bind_eq]
  exact onlyTexts_putTexts writes_ne_nil

theorem get?_of_look {l : Layers} (hl : OnlyTexts l.overrides) {key : Text} {v : Setting}
    (hkey : key.lower = key) (h : look (pathOf key) l.overrides = some v) :
    l.get? key = .ok (some v) := by
  rw [get?, hkey, hl.at?_eq_look, h]
  rcases hl _ v (pathOf_ne_nil key) h with ⟨s, rfl⟩ | ⟨m, rfl⟩ <;> rfl

theorem suffix_of_boundName? {lead name key : Text} (h : boundName? lead name = some key) :
    key <:+ name := by
  rw [boundName?] at h
  split at h
  · cases h
    exact List.suffix_rfl
  · split at h
    · cases h
    · rw [dropLead?_eq_some.mp h]
      exact List.suffix_append _ key

theorem writes_at_or_apart {lead k w : Text} {e : Text × Text} (hk : boundName? lead e.1 = some k)
    (hpoint : 0x2E ∉ k) (hw : w ∈ keyVariants k) :
    ∀ v ∈ writes lead e, v = (pathOf w, e.2) ∨ Apart (pathOf w) v.1 := by
  intro v hv
  obtain ⟨n, key, hn, hkey, rfl⟩ := mem_writes hv
  obtain rfl : k = n := Option.some.inj (hk.symm.trans hn)
  by_cases he : key = w
  · exact .inl (by rw [he])
  · exact .inr (apart_of_mem_keyVariants hpoint hw hkey (Ne.symm he))

theorem mem_writes_of_mem_keyVariants {lead k w : Text} {e : Text × Text}
    (hk : boundName? lead e.1 = some k) (hw : w ∈ keyVariants k) :
    (pathOf w, e.2) ∈ writes lead e := by
  rw [writes, hk]
  exact List.mem_map.mpr ⟨w, hw, rfl⟩

/-- No later write takes away what a variable has set. -/
theorem look_bind {lead name value k w : Text} {before after : Environment}
    (hk : boundName? lead name = some k) (hpoint : 0x2E ∉ k)
    (hafter : ∀ e ∈ after, ∀ k', boundName? lead e.1 = some k' →
      0x2E ∉ k' ∧ k'.lower ≠ k.lower ∧
        ¬k.lower ++ [0x5F] <+: k'.lower ∧ ¬k'.lower ++ [0x5F] <+: k.lower)
    (hw : w ∈ keyVariants k) (l : Layers) :
    look (pathOf w) (l.bind lead (before ++ (name, value) :: after)).overrides =
      some (.string value) := by
  have hlater : ∀ v ∈ after.flatMap (writes lead), Apart (pathOf w) v.1 := by
    intro v hv
    obtain ⟨e, he, hv⟩ := List.mem_flatMap.mp hv
    obtain ⟨n, key, hn, hkey, rfl⟩ := mem_writes hv
    obtain ⟨hp, hne, h1, h2⟩ := hafter e he n hn
    exact apart_of_names hpoint hp (Ne.symm hne) h1 h2 hw hkey
  have hws : ∀ v ∈ writes lead (name, value) ++ after.flatMap (writes lead),
      v = (pathOf w, value) ∨ Apart (pathOf w) v.1 := by
    intro v hv
    rcases List.mem_append.mp hv with hv | hv
    · exact writes_at_or_apart hk hpoint hw v hv
    · exact .inr (hlater v hv)
  have hmem := List.mem_append_left (after.flatMap (writes lead))
    (mem_writes_of_mem_keyVariants (e := (name, value)) hk hw)
  rw [bind_eq, List.flatMap_append, List.flatMap_cons, putTexts_append]
  exact (look_putTexts (pathOf_ne_nil w) hws _).trans (if_pos hmem)

/-- Binding loses no update: after all entries are bound to layers that have nothing set, every key of
a variable has its value, whatever comes before it, unless a later variable has the same name or one
of the two names leads the other up to an underscore. -/
theorem get?_bind_of_mem_keyVariants (lead : Text) {before after : List Text}
    {entry name value k w : Text}
    (hplain : ∀ e ∈ (before ++ entry :: after).filterMap Environment.entry?, 0x2E ∉ e.1)
    (hentry : Environment.entry? entry = some (name, value))
    (hk : boundName? lead name = some k)
    (hafter : ∀ e ∈ after.filterMap Environment.entry?, ∀ k' ∈ boundName? lead e.1,
      k.lower ≠ k'.lower ∧ ¬k.lower ++ [0x5F] <+: k'.lower ∧ ¬k'.lower ++ [0x5F] <+: k.lower)
    (hw : w ∈ keyVariants k) :
    (({} : Layers).bind lead ((before ++ entry :: after).filterMap Environment.entry?)).get? w =
      .ok (some (.string value)) := by
  refine get?_of_look (onlyTexts_bind lead _ []) (lower_of_mem_keyVariants hw) ?_
  rw [List.filterMap_append, List.filterMap_cons, hentry] at hplain ⊢
  have hpoint : ∀ e ∈ (name, value) :: after.filterMap Environment.entry?, ∀ key,
      boundName? lead e.1 = some key → 0x2E ∉ key := by
    intro e he key hkey hmem
    exact hplain e (List.mem_append_right _ he) ((suffix_of_boundName? hkey).subset hmem)
  refine look_bind hk (hpoint (name, value) List.mem_cons_self k hk) ?_ hw _
  intro e he k' hk'
  obtain ⟨hne, h1, h2⟩ := hafter e he k' hk'
  exact ⟨hpoint e (List.mem_cons_of_mem _ he) k' hk', Ne.symm hne, h1, h2⟩

/-- `APP_LOGGING_NO_COLOR` after a variable for the whole section and before one that only looks
like it. -/
theorem get?_bind_logging_no_color :
    let before := [utf8 "APP_LOGGING=x", utf8 "HOME=/root", utf8 "APP_LOGGING_NO=y"]
    let after := [utf8 "APP_LOGGING_NO_COLORS=2", utf8 "LOGGING=z", utf8 "APP_LOGGING_LEVEL=warn"]
    let l := ({} : Layers).bind (utf8 "APP")
      ((before ++ utf8 "APP_LOGGING_NO_COLOR=1" :: after).filterMap Environment.entry?)
    l.get? (utf8 "logging.no_color") = .ok (some (.string (utf8 "1"))) ∧
      l.get? (utf8 "logging.no.color") = .ok (some (.string (utf8 "1"))) := by
  intro before after l
  have hentry : Environment.entry? (utf8 "APP_LOGGING_NO_COLOR=1") =
      some (utf8 "APP_LOGGING_NO_COLOR", utf8 "1") := by decide +kernel
  have hall : ∀ w ∈ keyVariants (utf8 "LOGGING_NO_COLOR"),
      l.get? w = .ok (some (.string (utf8 "1"))) := fun w hw =>
    get?_bind_of_mem_keyVariants (utf8 "APP") (by decide +kernel) hentry (by decide +kernel)
      (by decide +kernel) hw
  exact ⟨hall _ (by decide +kernel), hall _ (by decide +kernel)⟩

end ServiceKit.Config.Layers
