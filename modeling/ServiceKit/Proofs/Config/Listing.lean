import Mathlib
import ServiceKit.Proofs.Config.Keys

/-!
Which keys are listed, without regard to their order: only keys of plain values, and every plain value is
listed or a key on the way to it is. What is below the empty name is listed as if it stood above it.
-/

namespace ServiceKit.Config.Tree

open Setting Text

/-- A key of one part, in lower case. -/
def isStep (k : Text) : Bool := isLowerKey k && isPart k

theorem isStep_iff {k : Text} : isStep k = true ↔ k.lower = k ∧ 0x2E ∉ k := by
  simp [isStep, isLowerKey, isPart]

/-- Does a key name a plain value? What is below the empty name goes by its path there. -/
def Names (t : Tree) (κ : Text) : Prop :=
  κ.head? ≠ some 0x2E ∧
    ∃ n x, (∀ m, x ≠ .map m) ∧ look (List.replicate n [] ++ pathOf κ) t = some x

theorem lower_join_of_steps {q : List Text} (hq : ∀ k ∈ q, isStep k = true) :
    (join [0x2E] q).lower = join [0x2E] q := by
  rw [lower_join isDivider_point, List.map_congr_left (g := id), List.map_id]
  exact fun k hk => (isStep_iff.mp (hq k hk)).1

theorem Names.lower {t : Tree} (ht : everyEntry isStep t = true) {κ : Text} (h : Names t κ) :
    κ.lower = κ := by
  obtain ⟨-, n, x, -, hlook⟩ := h
  have hsteps := steps_of_look ht hlook
  have hjoin := lower_join_of_steps fun k hk => hsteps k (List.mem_append_right _ hk)
  rwa [pathOf, join_split] at hjoin

/-- Is there a plain value at the end of a path that starts at a setting? -/
def PlainAt (v : Setting) (r : List Text) : Prop := ∃ x, (∀ m, x ≠ .map m) ∧ lookIn v r = some x

theorem settingKeys_plain_source {known : List Text} {κ : Text} {q : List Text} (hq : q ≠ [])
    (hsteps : ∀ k ∈ q, isStep k = true) {v : Setting}
    (hv : ∀ m, v ≠ .map m) (h : κ ∈ settingKeys known (join [0x2E] q) v) :
    κ ∈ known ∨ ∃ r, PlainAt v r ∧ pathOf κ = q ++ r := by
  rw [settingKeys_of_plain hv, lower_join_of_steps hsteps] at h
  rcases mem_addKey.mp h with h | rfl
  · exact .inl h
  · refine .inr ⟨[], ⟨v, hv, rfl⟩, ?_⟩
    rw [List.append_nil]
    exact split_join hq fun k hk => (isStep_iff.mp (hsteps k hk)).2

mutual

theorem settingKeys_source {known : List Text} {κ : Text} {q : List Text} (hq : q ≠ [])
    (hkey : join [0x2E] q ≠ []) (hsteps : ∀ k ∈ q, isStep k = true) :
    (v : Setting) → everyKey isStep v = true → SortedIn v → κ ∈ settingKeys known (join [0x2E] q) v →
      κ ∈ known ∨ ∃ r, PlainAt v r ∧ pathOf κ = q ++ r
  | .map entries, hv, hsorted, h => by
      rw [settingKeys] at h
      split at h
      · exact .inl h
      · rw [if_neg (by simpa using hkey)] at h
        rcases levelKeys_source hq hkey hsteps entries hv (fun e he => hsorted.entry he) h with
          h | ⟨e, he, r, ⟨x, hx, hlook⟩, hpath⟩
        · exact .inl h
        · refine .inr ⟨e.1 :: r, ⟨x, hx, ?_⟩, hpath⟩
          rw [lookIn_map_cons (hsorted [] entries rfl) he]
          exact hlook
  | .null, _, _, h | .bool _, _, _, h | .int _, _, _, h | .float _, _, _, h | .string _, _, _, h
  | .time _, _, _, h | .list _, _, _, h | .table _, _, _, h =>
      settingKeys_plain_source hq hsteps (fun m hm => by cases hm) h

theorem levelKeys_source {known : List Text} {κ : Text} {q : List Text} (hq : q ≠ [])
    (hkey : join [0x2E] q ≠ []) (hsteps : ∀ k ∈ q, isStep k = true) :
    (entries : List (Text × Setting)) → everyEntry isStep entries = true →
      (∀ e ∈ entries, SortedIn e.2) → κ ∈ levelKeys known (join [0x2E] q ++ [0x2E]) entries →
      κ ∈ known ∨ ∃ e ∈ entries, ∃ r, PlainAt e.2 r ∧ pathOf κ = q ++ e.1 :: r
  | [], _, _, h => .inl h
  | (k, v) :: rest, hentries, hsorted, h => by
      rw [everyEntry, Bool.and_eq_true_iff, Bool.and_eq_true_iff] at hentries
      obtain ⟨⟨hk, hv⟩, hrest⟩ := hentries
      rw [levelKeys] at h
      rcases levelKeys_source hq hkey hsteps rest hrest
        (fun e he => hsorted e (List.mem_cons_of_mem _ he)) h with h | ⟨e, he, hplain⟩
      · have hjoin : join [0x2E] q ++ [0x2E] ++ k = join [0x2E] (q ++ [k]) := by
          rw [join_append 0x2E hq (by simp), List.append_assoc]
          rfl
        rw [hjoin] at h
        have hsteps' : ∀ x ∈ q ++ [k], isStep x = true := by
          intro x hx
          rcases List.mem_append.mp hx with hx | hx
          · exact hsteps x hx
          · exact List.mem_singleton.mp hx ▸ hk
        rcases settingKeys_source (by simp) (by simp [← hjoin]) hsteps' v hv
          (hsorted (k, v) List.mem_cons_self) h with h | ⟨r, hplain, hpath⟩
        · exact .inl h
        · exact .inr ⟨(k, v), List.mem_cons_self, r, hplain, by rw [hpath, List.append_assoc]; rfl⟩
      · exact .inr ⟨e, List.mem_cons_of_mem _ he, hplain⟩

end

/-- Does a key name a plain value of an entry? -/
def NamesIn (e : Text × Setting) (κ : Text) : Prop :=
  κ.head? ≠ some 0x2E ∧ ∃ n r, PlainAt e.2 r ∧ e.1 :: r = List.replicate n [] ++ pathOf κ

theorem NamesIn.names {t : Tree} (ht : Keyed.Sorted t) {e : Text × Setting} (he : e ∈ t) {κ : Text}
    (h : NamesIn e κ) : Names t κ := by
  obtain ⟨hhead, n, r, ⟨x, hx, hlook⟩, hpath⟩ := h
  refine ⟨hhead, n, x, hx, ?_⟩
  rw [← hpath]
  exact (lookIn_map_cons ht he r).trans hlook

theorem head?_of_pathOf {κ k : Text} {r : List Text} (h : pathOf κ = k :: r) (hk : k ≠ []) :
    κ.head? ≠ some 0x2E := by
  cases κ with
  | nil => simp
  | cons b κ =>
      rw [List.head?_cons]
      intro hb
      obtain rfl := Option.some.inj hb
      rw [pathOf, split_cons_self] at h
      exact hk (List.cons.inj h).1.symm

theorem settingKeys_empty_plain_source {known : List Text} {κ : Text} {v : Setting}
    (hv : ∀ m, v ≠ .map m) (h : κ ∈ settingKeys known [] v) : κ ∈ known ∨ NamesIn ([], v) κ := by
  rw [settingKeys_of_plain hv] at h
  rcases mem_addKey.mp h with h | rfl
  · exact .inl h
  · exact .inr ⟨by decide, 0, [], ⟨v, hv, rfl⟩, rfl⟩

mutual

/-- The keys at and below a setting with the empty name. -/
theorem settingKeys_empty_source {known : List Text} {κ : Text} :
    (v : Setting) → everyKey isStep v = true → SortedIn v → κ ∈ settingKeys known [] v →
      κ ∈ known ∨ NamesIn ([], v) κ
  | .map entries, hv, hsorted, h => by
      have hlevel := hsorted [] entries rfl
      rcases levelKeys_top_source entries hv (fun e he => hsorted.entry he) h with h | ⟨e, he, hnames⟩
      · exact .inl h
      · obtain ⟨hhead, n, x, hx, hlook⟩ := hnames.names hlevel he
        refine .inr ⟨hhead, n + 1, List.replicate n [] ++ pathOf κ, ⟨x, hx, ?_⟩, ?_⟩
        · rw [lookIn_of_ne_nil (by simp [pathOf_ne_nil])]
          exact hlook
        · rw [List.replicate_succ, List.cons_append]
  | .null, _, _, h | .bool _, _, _, h | .int _, _, _, h | .float _, _, _, h | .string _, _, _, h
  | .time _, _, _, h | .list _, _, _, h | .table _, _, _, h =>
      settingKeys_empty_plain_source (fun m hm => by cases hm) h

theorem levelKeys_top_source {known : List Text} {κ : Text} :
    (entries : List (Text × Setting)) → everyEntry isStep entries = true →
      (∀ e ∈ entries, SortedIn e.2) → κ ∈ levelKeys known [] entries →
      κ ∈ known ∨ ∃ e ∈ entries, NamesIn e κ
  | [], _, _, h => .inl h
  | (k, v) :: rest, hentries, hsorted, h => by
      rw [everyEntry, Bool.and_eq_true_iff, Bool.and_eq_true_iff] at hentries
      obtain ⟨⟨hk, hv⟩, hrest⟩ := hentries
      have hv' := hsorted (k, v) List.mem_cons_self
      rw [levelKeys, List.nil_append] at h
      rcases levelKeys_top_source rest hrest (fun e he => hsorted e (List.mem_cons_of_mem _ he)) h with
        h | ⟨e, he, hnames⟩
      · refine Or.imp id (fun hnames => ⟨(k, v), List.mem_cons_self, hnames⟩) ?_
        by_cases hempty : k = []
        · subst hempty
          exact settingKeys_empty_source v hv hv' h
        · have hstep : ∀ x ∈ [k], isStep x = true := by simpa using hk
          rcases settingKeys_source (q := [k]) (by simp) hempty hstep v hv hv' h with
            h | ⟨r, hplain, hpath⟩
          · exact .inl h
          · exact .inr ⟨head?_of_pathOf hpath hempty, 0, r, hplain, hpath.symm⟩
      · exact .inr ⟨e, List.mem_cons_of_mem _ he, hnames⟩

end

theorem names_of_mem_levelKeys {t : Tree} (ht : SortedTree t) (hsteps : everyEntry isStep t = true)
    {known : List Text} {κ : Text} (h : κ ∈ levelKeys known [] t) : κ ∈ known ∨ Names t κ := by
  rcases levelKeys_top_source t hsteps (fun e he => ht.sortedIn.entry he) h with h | ⟨e, he, hnames⟩
  · exact .inl h
  · exact .inr (hnames.names ht.1 he)

/-- A plain value that a key names is listed, or a key on the way to it is. -/
theorem Names.listed {t : Tree} (hsteps : everyEntry isStep t = true) {κ : Text} (h : Names t κ)
    (known : List Text) : ∃ κ' ∈ levelKeys known [] t, pathOf κ' <+: pathOf κ := by
  have hlower := h.lower hsteps
  obtain ⟨hhead, n, x, hx, hlook⟩ := h
  induction n generalizing t known with
  | zero =>
      cases κ with
      | nil =>
          have hmem : ([] ++ [] : Text).lower ∈ levelKeys known [] t :=
            mem_levelKeys_of_plain hx (Keyed.mem_of_find? hlook) known
          exact ⟨[], hmem, List.prefix_rfl⟩
      | cons b κ =>
          have hb : b ≠ 0x2E := fun hb => hhead (congrArg some hb)
          obtain ⟨w, ws, -, hpath⟩ := split_cons_of_ne hb κ
          exact exists_listed hx hlower hpath (by simp) hlook known
  | succ n ih =>
      have hne : List.replicate n [] ++ pathOf κ ≠ [] := by simp [pathOf_ne_nil]
      rw [List.replicate_succ, List.cons_append, look_cons hne] at hlook
      obtain ⟨m, hm⟩ := exists_level_of_look hne hlook
      rw [hm] at hlook
      refine exists_mem_levelKeys (Keyed.mem_of_find? hm) (fun known => ?_) known
      exact ih (everyKey_of_find? hsteps hm) known hlook

end ServiceKit.Config.Tree
