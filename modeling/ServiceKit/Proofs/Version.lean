import Mathlib
import ServiceKit.Version

/-!
The version line of a program. The stamped commit counts before those that the build names, of these the
first one counts that is not empty, and of all words on changes the last. A known build bounds the length
of the commit; without one a stamped commit is shown whole.
-/

namespace ServiceKit

/-- The values under one key, in the order of the settings. -/
def Build.valuesOf (key : Text) (settings : List (Text × Text)) : List Text :=
  (settings.filter fun s => s.1 = key).map Prod.snd

/-- What a build says of itself; one that is not known says nothing. -/
def Build.settingsOf : Option Build → List (Text × Text)
  | none => []
  | some b => b.settings

/-- The stamped commit, or else the first one that the build names. -/
def Stamp.commitWith (stamp : Stamp) (build : Option Build) : Text :=
  if stamp.commit = [] then
    ((Build.valuesOf (utf8 "vcs.revision") (Build.settingsOf build)).find? (· ≠ [])).getD []
  else stamp.commit

/-- Was the source changed after the commit? The last word of the build on it counts. -/
def Build.isModified (build : Option Build) : Bool :=
  (valuesOf (utf8 "vcs.modified") (settingsOf build)).getLast? == some (utf8 "true")

namespace Version

open Build

/-- A version line: a commit that is empty is left out with its hyphen. -/
def line (version commit : Text) (modified : Bool) : Text :=
  version ++ (if commit = [] then [] else utf8 "-" ++ commit)
    ++ (if modified then utf8 "-dirty" else [])

theorem short_eq_line (v : Version) : v.short = line v.version v.commit v.dirty := by
  rw [short, line]
  congr 2
  cases v.commit <;> rfl

theorem line_inj {version c d : Text} {modified : Bool} :
    line version c modified = line version d modified ↔ c = d := by
  constructor
  · intro h
    have hmark := List.append_cancel_left (List.append_cancel_right h)
    split_ifs at hmark with hc hd hd
    · rw [hc, hd]
    · cases hmark
    · cases hmark
    · exact List.append_cancel_left hmark
  · exact congrArg (line version · modified)

/-! ### One setting -/

variable {key value : Text} {settings : List (Text × Text)}

theorem valuesOf_cons_self (key value : Text) (settings : List (Text × Text)) :
    valuesOf key ((key, value) :: settings) = value :: valuesOf key settings := by
  rw [valuesOf, List.filter_cons_of_pos (by simp)]
  rfl

theorem valuesOf_cons_ne {key' : Text} (h : key' ≠ key) :
    valuesOf key ((key', value) :: settings) = valuesOf key settings := by
  rw [valuesOf, List.filter_cons_of_neg (by simpa using h)]
  rfl

theorem revision_ne_modified : utf8 "vcs.revision" ≠ utf8 "vcs.modified" := by decide

theorem addSetting_revision (v : Version) (value : Text) :
    v.addSetting (utf8 "vcs.revision", value) =
      { v with commit := if v.commit = [] then value else v.commit } := by
  rw [addSetting, if_pos rfl]
  split_ifs with hempty hcommit hcommit
  · rfl
  · exact absurd (List.isEmpty_iff.mp hempty) hcommit
  · exact absurd (List.isEmpty_iff.mpr hcommit) hempty
  · rfl

theorem addSetting_modified (v : Version) (value : Text) :
    v.addSetting (utf8 "vcs.modified", value) = { v with dirty := value == utf8 "true" } := by
  rw [addSetting, if_neg revision_ne_modified.symm, if_pos rfl]

theorem addSetting_other (v : Version) (hrevision : key ≠ utf8 "vcs.revision")
    (hmodified : key ≠ utf8 "vcs.modified") : v.addSetting (key, value) = v := by
  rw [addSetting, if_neg hrevision, if_neg hmodified]

/-! ### All settings -/

theorem version_foldl (settings : List (Text × Text)) (v : Version) :
    (settings.foldl addSetting v).version = v.version := by
  induction settings generalizing v with
  | nil => rfl
  | cons s settings ih =>
      rw [List.foldl_cons, ih, addSetting]
      split_ifs <;> rfl

/-- A commit that is there stays; else the first one that is named and not empty is taken. -/
theorem commit_foldl (settings : List (Text × Text)) (v : Version) :
    (settings.foldl addSetting v).commit = if v.commit = [] then
      ((valuesOf (utf8 "vcs.revision") settings).find? (· ≠ [])).getD [] else v.commit := by
  induction settings generalizing v with
  | nil =>
      change v.commit = if v.commit = [] then [] else v.commit
      split_ifs with h
      · exact h
      · rfl
  | cons s settings ih =>
      obtain ⟨key, value⟩ := s
      rw [List.foldl_cons, ih]
      by_cases hrevision : key = utf8 "vcs.revision"
      · subst hrevision
        rw [addSetting_revision, valuesOf_cons_self]
        by_cases hcommit : v.commit = []
        · by_cases hvalue : value = []
          · simp [hcommit, hvalue]
          · simp [hcommit, hvalue]
        · simp [hcommit]
      · rw [valuesOf_cons_ne hrevision]
        by_cases hmodified : key = utf8 "vcs.modified"
        · subst hmodified
          rw [addSetting_modified]
        · rw [addSetting_other v hrevision hmodified]

/-- The last word on changes counts, and without any the one that is there. -/
theorem dirty_foldl (settings : List (Text × Text)) (v : Version) :
    (settings.foldl addSetting v).dirty =
      ((valuesOf (utf8 "vcs.modified") settings).getLast?.map (· == utf8 "true")).getD v.dirty := by
  induction settings generalizing v with
  | nil => rfl
  | cons s settings ih =>
      obtain ⟨key, value⟩ := s
      rw [List.foldl_cons, ih]
      by_cases hmodified : key = utf8 "vcs.modified"
      · subst hmodified
        rw [addSetting_modified, valuesOf_cons_self, List.getLast?_cons]
        cases (valuesOf (utf8 "vcs.modified") settings).getLast? <;> rfl
      · rw [valuesOf_cons_ne hmodified]
        by_cases hrevision : key = utf8 "vcs.revision"
        · subst hrevision
          rw [addSetting_revision]
        · rw [addSetting_other v hrevision hmodified]

/-! ### The line -/

theorem commitWith_none (stamp : Stamp) : stamp.commitWith none = stamp.commit := by
  rw [Stamp.commitWith]
  split_ifs with h
  · exact h.symm
  · rfl

theorem short_ofBuild_none (stamp : Stamp) :
    (ofBuild stamp none).short = line stamp.version (stamp.commitWith none) (isModified none) := by
  rw [short_eq_line, commitWith_none]
  rfl

theorem short_ofBuild_some (stamp : Stamp) (b : Build) :
    (ofBuild stamp (some b)).short =
      line stamp.version ((stamp.commitWith (some b)).take 7) (isModified (some b)) := by
  rw [short_eq_line, ofBuild]
  simp only [version_foldl, commit_foldl, dirty_foldl]
  have hmodified : ((valuesOf (utf8 "vcs.modified") b.settings).getLast?.map (· == utf8 "true")).getD
      false = isModified (some b) := by
    rw [isModified, settingsOf]
    cases (valuesOf (utf8 "vcs.modified") b.settings).getLast? <;> rfl
  rw [hmodified]
  rfl

/-- The version line has the commit in full if the build is not known and else the first seven bytes of
it. So it has the seven bytes in every case but one: a longer commit that is stamped into a program of
which the build is not known. -/
theorem short_ofBuild (stamp : Stamp) (build : Option Build) :
    (ofBuild stamp build).short = line stamp.version
        (if build.isSome then (stamp.commitWith build).take 7 else stamp.commitWith build)
        (isModified build) ∧
      ((ofBuild stamp build).short =
          line stamp.version ((stamp.commitWith build).take 7) (isModified build) ↔
        build.isSome ∨ stamp.commit.length ≤ 7) := by
  cases build with
  | some b => exact ⟨short_ofBuild_some stamp b, iff_of_true (short_ofBuild_some stamp b) (.inl rfl)⟩
  | none =>
      refine ⟨short_ofBuild_none stamp, ?_⟩
      rw [short_ofBuild_none, line_inj, commitWith_none, eq_comm, List.take_eq_self_iff]
      simp

example : (ofBuild ⟨utf8 "1.0.0", utf8 "0123456789abcdef"⟩ none).short =
    utf8 "1.0.0-0123456789abcdef" := by decide

end Version

end ServiceKit
