import Mathlib
import ServiceKit.Proofs.Config.Loading

/-!
The variables that a settings file refers to. They can be told from the file alone, and the file is
read alike in all environments that agree on them.
-/

namespace ServiceKit.Config

namespace Reference

/-- The names that a text refers to. -/
def names (parens : Bool) : Nat → Text → List Text
  | 0, _ => []
  | _ + 1, [] => []
  | fuel + 1, b :: rest =>
    if b = 0x5C && rest.head? = some 0x24 then
      names parens fuel (ofText parens (rest.drop 1)).rest
    else if b = 0x24 then
      (ofText parens rest).name :: names parens fuel (ofText parens rest).rest
    else names parens fuel rest

theorem expand_congr {parens : Bool} {value value' : Text → Text} {fuel : Nat} {s : Text}
    (h : ∀ n ∈ names parens fuel s, value n = value' n) :
    expand parens value fuel s = expand parens value' fuel s := by
  induction fuel generalizing s with
  | zero => rfl
  | succ fuel ih =>
      cases s with
      | nil => rfl
      | cons b rest =>
          rw [names] at h
          rw [expand, expand]
          split
          · rename_i hescaped
            rw [if_pos hescaped] at h
            simp only [ih h]
          · rename_i hescaped
            rw [if_neg hescaped] at h
            split
            · rename_i hdollar
              rw [if_pos hdollar] at h
              have hname := h _ List.mem_cons_self
              have hrest := ih fun n hn => h n (List.mem_cons_of_mem _ hn)
              simp only [hname, hrest]
            · rename_i hdollar
              rw [if_neg hdollar] at h
              rw [ih h]

end Reference

namespace Assignments

/-- The names that a written value refers to. -/
def namesIn (written : Text) : List Text :=
  let names (s : Text) : List Text := Reference.names false (s.length + 1) s
  let s := Text.trim written
  let inside := (s.drop 1).take (s.length - 2)
  if isQuotedBy 0x27 s then []
  else if isQuotedBy 0x22 s then names (dropEscapes (breaks 0x72 0x0D (breaks 0x6E 0x0A inside)))
  else names s

theorem meaning_congr {env env' : Environment} {written : Text}
    (h : ∀ n ∈ namesIn written, Environment.find? n env = Environment.find? n env')
    (known : Keyed Text) : meaning env known written = meaning env' known written := by
  have hlookup : ∀ n ∈ namesIn written, lookup env known n = lookup env' known n := by
    intro n hn
    rw [lookup, lookup, h n hn]
  unfold namesIn at hlookup
  unfold meaning
  simp only at hlookup ⊢
  split
  · rfl
  · rename_i hsingle
    rw [if_neg hsingle] at hlookup
    split
    · rename_i hdouble
      rw [if_pos hdouble] at hlookup
      exact Reference.expand_congr hlookup
    · rename_i hdouble
      rw [if_neg hdouble] at hlookup
      exact Reference.expand_congr hlookup

/-- The names that the assignments of a list of lines refer to. -/
def namesInLines : Nat → List Text → List Text
  | 0, _ => []
  | _ + 1, [] => []
  | fuel + 1, line :: rest =>
    let line := Text.trim line
    if line.isEmpty || line.head? = some 0x23 then namesInLines fuel rest
    else
      let whole := match openQuote? line with
        | none => some (line, rest)
        | some quote =>
          (upToClose? quote rest).map fun (taken, rest) => (Text.join [0x0A] (line :: taken), rest)
      match whole with
      | some (line, rest) =>
        ((statement? line).map fun e => namesIn e.2).getD [] ++ namesInLines fuel rest
      | none => []

/-- The settings of one assignment and of the lines after it. -/
def settingsFrom (env : Environment) (fuel : Nat) (known : Keyed Text) (line : Text)
    (rest : List Text) : Except Mistake (Keyed Text) :=
  match statement? line with
  | some (key, written) =>
    settings env fuel (Keyed.put key (meaning env known written) known) rest
  | none => .error (mistakeIn known line)

theorem settings_congr {env env' : Environment} {fuel : Nat} {ls : List Text}
    (h : ∀ n ∈ namesInLines fuel ls, Environment.find? n env = Environment.find? n env')
    (known : Keyed Text) : settings env fuel known ls = settings env' fuel known ls := by
  induction fuel generalizing ls known with
  | zero => rfl
  | succ fuel ih =>
      cases ls with
      | nil => rfl
      | cons line rest =>
          -- one assignment, once it is known which lines it takes
          have hone : ∀ (line : Text) (rest : List Text),
              (∀ n ∈ ((statement? line).map fun e => namesIn e.2).getD [] ++ namesInLines fuel rest,
                Environment.find? n env = Environment.find? n env') →
              settingsFrom env fuel known line rest = settingsFrom env' fuel known line rest := by
            intro line rest h
            unfold settingsFrom
            cases hs : statement? line with
            | none => rfl
            | some e =>
                rw [hs] at h
                have hvalue := meaning_congr (fun n hn => h n (List.mem_append_left _ hn)) known
                simp only [hvalue]
                exact ih (fun n hn => h n (List.mem_append_right _ hn)) _
          rw [namesInLines] at h
          rw [settings, settings]
          simp only at h ⊢
          split
          · rename_i hblank
            rw [if_pos hblank] at h
            exact ih h known
          · rename_i hblank
            rw [if_neg hblank] at h
            cases hquote : openQuote? (Text.trim line) with
            | none =>
                rw [hquote] at h
                exact hone _ _ h
            | some quote =>
                simp only [hquote] at h ⊢
                cases hclose : upToClose? quote rest with
                | none => rfl
                | some r =>
                    rw [hclose] at h
                    exact hone _ _ h

/-- The names that a file of assignments refers to. -/
def references (s : Text) : List Text :=
  let readable := (lines s.unmarked).takeWhile fun l => l.length < lineLimit
  namesInLines (readable.length + 1) readable

theorem read_congr {env env' : Environment} {s : Text}
    (h : ∀ n ∈ references s, Environment.find? n env = Environment.find? n env') :
    read env s = read env' s := by
  unfold read
  simp only [settings_congr h]

end Assignments

/-- The names that the settings file of a load refers to. -/
def referencesOf (s : Surroundings) (service : Text) (o : LoadOptions) : List Text :=
  if (isThere (accessOf s o) (configFileOf s service o)).1 then
    match SettingsFile.forms.find? fun f => f.1 == SettingsFile.ending (configFileOf s service o),
        s.files.content (configFileOf s service o) with
    | some (_, .assignments), .ok text => Assignments.references text
    | _, _ => []
  else []

/-- A file is read alike in environments that agree on the variables that it refers to. -/
theorem fileOf_congr {s : Surroundings} {service : Text} {o : LoadOptions} {env env' : Environment}
    (h : ∀ n ∈ referencesOf s service o, Environment.find? n env = Environment.find? n env') :
    fileOf { s with environment := env } service o =
      fileOf { s with environment := env' } service o := by
  unfold referencesOf at h
  unfold fileOf
  change (if (isThere (accessOf s o) (configFileOf s service o)).1 then
      SettingsFile.read s.order s.toml env (configFileOf s service o)
        (s.files.content (configFileOf s service o))
    else .ok []) =
    (if (isThere (accessOf s o) (configFileOf s service o)).1 then
      SettingsFile.read s.order s.toml env' (configFileOf s service o)
        (s.files.content (configFileOf s service o))
    else .ok [])
  split
  · rename_i hthere
    rw [if_pos hthere] at h
    unfold SettingsFile.read
    cases hform : SettingsFile.forms.find? fun f =>
        f.1 == SettingsFile.ending (configFileOf s service o) with
    | none => rfl
    | some f =>
        rw [hform] at h
        cases hcontent : s.files.content (configFileOf s service o) with
        | error e => rfl
        | ok text =>
            rw [hcontent] at h
            have hparse : SettingsFile.parse s.toml env f.2 text =
                SettingsFile.parse s.toml env' f.2 text := by
              cases hf : f.2 with
              | assignments =>
                  obtain ⟨name, form⟩ := f
                  simp only at hf
                  subst hf
                  rw [SettingsFile.parse, SettingsFile.parse, Assignments.read_congr h]
              | _ => rfl
            change (SettingsFile.parse s.toml env f.2 text >>= _) =
              (SettingsFile.parse s.toml env' f.2 text >>= _)
            rw [hparse]
  · rfl

end ServiceKit.Config
