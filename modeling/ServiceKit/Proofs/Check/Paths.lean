import Mathlib
import ServiceKit.Proofs.Check.Records

/-!
Where a field stands in a record, and the path by which it is reported. The path has the names of all
fields from the root down, if the type of the record has a name; without one the first of several names
is lost.
-/

namespace ServiceKit.Check

variable {others : OtherTests}

/-- Texts, and records of them to any depth, with names that hold no point. -/
inductive IsTextTree : Value → Prop
  | string (s : Text) : IsTextTree (.string s)
  | record {fields : List (Field × Value)} : (∀ f ∈ fields, 0x2E ∉ f.1.publicName) →
      (∀ f ∈ fields, IsTextTree f.2) → IsTextTree (.record fields)

/-- A rule is broken by a value that is to follow a chain, or by one inside it to which names lead. -/
inductive FailsAt (others : OtherTests) : Value → List Rule → List Text → Text → Text → Prop
  | here {v : Value} {chain : List Rule} {rule param : Text} :
      runChain others false v chain = .ok (.failed rule param) → FailsAt others v chain [] rule param
  | inside {fields : List (Field × Value)} {f : Field × Value} {chain inner : List Rule}
      {names : List Text} {rule param : Text} :
      runChain others false (.record fields) chain = .ok .passed → f ∈ fields →
      fieldChain others f.1 = .ok (some inner) → FailsAt others f.2 inner names rule param →
      FailsAt others (.record fields) chain (f.1.publicName :: names) rule param

/-- There is nothing inside a text, and nothing inside a record is looked at that breaks or ends its own
chain. -/
theorem failsAt_self_iff {v : Value} {chain : List Rule}
    (hv : ∀ fields, v = .record fields → runChain others false v chain ≠ .ok .passed) {names : List Text}
    {rule param : Text} :
    FailsAt others v chain names rule param ↔
      names = [] ∧ runChain others false v chain = .ok (.failed rule param) := by
  constructor
  · intro h
    cases h with
    | here hfailed => exact ⟨rfl, hfailed⟩
    | inside hrun hf hinner hfails => exact absurd hrun (hv _ rfl)
  · rintro ⟨rfl, hfailed⟩
    exact .here hfailed

theorem failsAt_record_iff {fields : List (Field × Value)} {chain : List Rule}
    (hpassed : runChain others false (.record fields) chain = .ok .passed) {names : List Text}
    {rule param : Text} :
    FailsAt others (.record fields) chain names rule param ↔
      ∃ f ∈ fields, ∃ inner rest, names = f.1.publicName :: rest ∧
        fieldChain others f.1 = .ok (some inner) ∧ FailsAt others f.2 inner rest rule param := by
  constructor
  · intro h
    cases h with
    | here hfailed =>
        rw [hpassed] at hfailed
        cases hfailed
    | inside hrun hf hinner hfails => exact ⟨_, hf, _, _, rfl, hinner, hfails⟩
  · rintro ⟨f, hf, inner, rest, rfl, hinner, hfails⟩
    exact .inside hpassed hf hinner hfails

/-! ### What is reported -/

/-- What is reported of a value by its own chain. -/
def Outcome.entries (space name : Text) : Outcome → List FieldError
  | failed rule param => [fieldError space name rule param]
  | _ => []

theorem Outcome.mem_entries {v : Value} {chain : List Rule} {outcome : Outcome}
    (hrun : runChain others false v chain = .ok outcome)
    (hv : ∀ fields, v = .record fields → outcome ≠ .passed) (space name : Text) (e : FieldError) :
    e ∈ outcome.entries space name ↔ ∃ names rule param, FailsAt others v chain names rule param ∧
      e = ⟨pathAt space (name :: names), ruleMessage rule param⟩ := by
  have hself {names : List Text} {rule param : Text} :
      FailsAt others v chain names rule param ↔ names = [] ∧ outcome = .failed rule param := by
    rw [failsAt_self_iff, hrun, Except.ok.injEq]
    intro fields hfields
    rw [hrun, ne_eq, Except.ok.injEq]
    exact hv fields hfields
  cases outcome <;> simp [entries, hself, fieldError_eq]

/-- What is reported of the fields of a record is what is reported of each of them. -/
theorem mem_checkFields {space : Text} {fields : List (Field × Value)}
    {chains : List (Option (List Rule))} {errors : List FieldError}
    {Reported : Field × Value → List Rule → FieldError → Prop}
    (hchains : (fields.mapM fun f => fieldChain others f.1) = .ok chains)
    (h : checkFields others space chains fields = .ok errors)
    (hfields : ∀ f ∈ fields, ∀ chain found,
      checkValue others space f.1.publicName false chain f.2 = .ok found →
        ∀ e, e ∈ found ↔ Reported f chain e) (e : FieldError) :
    e ∈ errors ↔
      ∃ f ∈ fields, ∃ chain, fieldChain others f.1 = .ok (some chain) ∧ Reported f chain e := by
  induction fields generalizing chains errors with
  | nil =>
      obtain rfl : [] = chains := Except.ok.inj hchains
      obtain rfl : [] = errors := Except.ok.inj h
      simp
  | cons f fields ih =>
      obtain ⟨hfield, hfields⟩ := List.forall_mem_cons.mp hfields
      rw [List.mapM_cons] at hchains
      obtain ⟨chain?, hf, hchains⟩ := exists_of_bind_ok hchains
      obtain ⟨rest, hrest, hchains⟩ := exists_of_bind_ok hchains
      obtain rfl : chain? :: rest = chains := Except.ok.inj hchains
      simp only [List.mem_cons, exists_eq_or_imp, hf, Except.ok.injEq]
      cases chain? with
      | none =>
          rw [checkFields] at h
          simp [ih hrest h hfields]
      | some chain =>
          rw [checkFields] at h
          obtain ⟨found, hfound, h⟩ := exists_of_bind_ok h
          obtain ⟨more, hmore, h⟩ := exists_of_bind_ok h
          obtain rfl : found ++ more = errors := Except.ok.inj h
          rw [List.mem_append, ih hrest hmore hfields, hfield chain found hfound e]
          simp

theorem mem_checkFields_record (space : Text) {fields : List (Field × Value)}
    {chains : List (Option (List Rule))} {errors : List FieldError} {chain : List Rule}
    {path : List Text → Text}
    (hchains : (fields.mapM fun f => fieldChain others f.1) = .ok chains)
    (h : checkFields others space chains fields = .ok errors)
    (hpassed : runChain others false (.record fields) chain = .ok .passed)
    (hfields : ∀ f ∈ fields, ∀ inner found,
      checkValue others space f.1.publicName false inner f.2 = .ok found →
        ∀ e, e ∈ found ↔ ∃ names rule param, FailsAt others f.2 inner names rule param ∧
          e = ⟨pathAt space (f.1.publicName :: names), ruleMessage rule param⟩)
    (hpath : ∀ names rule param, FailsAt others (.record fields) chain names rule param → names ≠ [] →
      pathAt space names = path names) (e : FieldError) :
    e ∈ errors ↔ ∃ names rule param, FailsAt others (.record fields) chain names rule param ∧
      e = ⟨path names, ruleMessage rule param⟩ := by
  rw [mem_checkFields hchains h hfields]
  constructor
  · rintro ⟨f, hf, inner, hinner, rest, rule, param, hfails, rfl⟩
    have hinside := FailsAt.inside hpassed hf hinner hfails
    refine ⟨_, rule, param, hinside, ?_⟩
    rw [hpath _ rule param hinside (List.cons_ne_nil _ _)]
  · rintro ⟨names, rule, param, hfails, rfl⟩
    obtain ⟨f, hf, inner, rest, rfl, hinner, hrest⟩ := (failsAt_record_iff hpassed).mp hfails
    refine ⟨f, hf, inner, hinner, rest, rule, param, hrest, ?_⟩
    rw [hpath _ rule param hfails (List.cons_ne_nil _ _)]

/-- What is reported of a value, by the names that lead to it inside. -/
theorem mem_checkValue {v : Value} (hv : IsTextTree v) {space name : Text} {chain : List Rule}
    {errors : List FieldError} (h : checkValue others space name false chain v = .ok errors)
    (e : FieldError) :
    e ∈ errors ↔ ∃ names rule param, FailsAt others v chain names rule param ∧
      e = ⟨pathAt space (name :: names), ruleMessage rule param⟩ := by
  induction hv generalizing space name chain errors e with
  | string s =>
      rw [checkValue, checkLeaf] at h
      obtain ⟨outcome, hrun, h⟩ := exists_of_bind_ok h
      have hentries := Outcome.mem_entries hrun (fun fields hfields => by cases hfields) space name e
      cases outcome with
      | dives rest => cases h
      | _ =>
          obtain rfl := Except.ok.inj h
          exact hentries
  | @record fields hnames hfields ih =>
      rw [checkValue] at h
      obtain ⟨outcome, hrun, h⟩ := exists_of_bind_ok h
      have hentries (hpassed : outcome ≠ .passed) :=
        Outcome.mem_entries hrun (fun _ _ => hpassed) space name e
      cases outcome with
      | dives rest => cases h
      | excused =>
          obtain rfl := Except.ok.inj h
          exact hentries Outcome.noConfusion
      | failed rule param =>
          obtain rfl := Except.ok.inj h
          exact hentries Outcome.noConfusion
      | passed =>
          obtain ⟨chains, hchains, h⟩ := exists_of_bind_ok h
          apply mem_checkFields_record _ hchains h hrun
          · intro f hf inner found hfound
            exact ih f hf hfound
          · intro names rule param _ hne
            exact (pathAt_cons space name hne).symm

/-! ### What is shown of the names -/

/-- What is shown of the names from the root down to a field. If the type of the record has a name, it is
cut off at its first point; if it has none, the first of several names is lost, and all but the last
bytes of a single long one. -/
def shownPath (typeName : Text) (names : List Text) : Text :=
  if typeName = [] then
    match names with
    | [name] => name.drop (name.length - name.length % 256)
    | _ => Text.join [0x2E] names.tail
  else Text.join [0x2E] ((Text.split 0x2E typeName).tail ++ names)

theorem shownPath_of_ne {typeName : Text} (h : typeName ≠ []) (names : List Text) :
    shownPath typeName names = Text.join [0x2E] ((Text.split 0x2E typeName).tail ++ names) := if_neg h

theorem reportedPath_join {w : Text} (hw : 0x2E ∉ w) {ws : List Text} (hws : ws ≠ []) (name : Text) :
    reportedPath (Text.join [0x2E] (w :: ws)) name = Text.join [0x2E] ws := by
  rw [Text.join_cons _ _ hws, List.append_assoc, List.singleton_append, reportedPath,
    Text.cut?_append hw]

theorem pathAt_rootSpace (typeName : Text) {names : List Text} (hne : names ≠ [])
    (hnames : ∀ n ∈ names, 0x2E ∉ n) : pathAt (rootSpace typeName) names = shownPath typeName names := by
  obtain ⟨name, rest, rfl⟩ := List.exists_cons_of_ne_nil hne
  have hname := hnames name List.mem_cons_self
  by_cases htype : typeName = []
  · subst htype
    cases rest with
    | nil =>
        change reportedPath name name = _
        rw [reportedPath, Text.cut?_of_not_mem hname]
        rfl
    | cons m rest => exact reportedPath_join hname (List.cons_ne_nil m rest) _
  · obtain ⟨w, ws, hsplit⟩ := List.exists_cons_of_ne_nil (Text.split_ne_nil 0x2E typeName)
    have hw : 0x2E ∉ w := Text.not_mem_of_mem_split (hsplit ▸ List.mem_cons_self)
    have hspace : rootSpace typeName ++ Text.join [0x2E] (name :: rest) =
        Text.join [0x2E] (w :: (ws ++ name :: rest)) := by
      rw [rootSpace, if_neg (by simpa using htype), ← List.cons_append,
        Text.join_append 0x2E (List.cons_ne_nil w ws) hne, ← hsplit, Text.join_split]
      simp
    rw [pathAt, hspace, reportedPath_join hw (by simp), shownPath_of_ne htype, hsplit, List.tail_cons]

theorem FailsAt.not_mem_names {v : Value} {chain : List Rule} {names : List Text} {rule param : Text}
    (h : FailsAt others v chain names rule param) (hv : IsTextTree v) : ∀ n ∈ names, 0x2E ∉ n := by
  induction h with
  | here => exact List.forall_mem_nil _
  | inside hrun hf hinner hfails ih =>
      cases hv with
      | record hnames hfields => exact List.forall_mem_cons.mpr ⟨hnames _ hf, ih (hfields _ hf)⟩

/-- The entries for a record of texts and records are those for the fields that break a rule. A field is
shown by the names from the root down, as they are if the type of the record has a name without a point in
it, and otherwise by what is left of them. -/
theorem validate_paths {typeName : Text} {fields : List (Field × Value)}
    (hfields : IsTextTree (.record fields)) {r : Option Failure}
    (h : validate others (.record typeName fields) = .ok r) :
    ∃ errors, r = FieldError.failure? errors ∧
      (∀ e, e ∈ errors ↔ ∃ names rule param, FailsAt others (.record fields) [] names rule param ∧
        e = ⟨shownPath typeName names, ruleMessage rule param⟩) ∧
      (typeName ≠ [] → 0x2E ∉ typeName → ∀ names, shownPath typeName names = Text.join [0x2E] names) := by
  rw [validate] at h
  obtain ⟨errors, herrors, h⟩ := exists_of_bind_ok h
  rw [checkRecord] at herrors
  obtain ⟨chains, hchains, herrors⟩ := exists_of_bind_ok herrors
  have hpassed : runChain others false (.record fields) [] = .ok .passed := rfl
  refine ⟨errors, (Except.ok.inj h).symm, ?_, ?_⟩
  · apply mem_checkFields_record (rootSpace typeName) hchains herrors hpassed
    · cases hfields with
      | record hnames htrees =>
          intro f hf inner found hfound
          exact mem_checkValue (htrees f hf) hfound
    · intro names rule param hfails hne
      exact pathAt_rootSpace typeName hne (hfails.not_mem_names hfields)
  · intro htype hpoint names
    rw [shownPath_of_ne htype, Text.split_eq_singleton hpoint, List.tail_cons, List.nil_append]

/-- A text in a section. -/
def sectionFields : List (Field × Value) :=
  [({ name := utf8 "Logging", tag := utf8 "mapstructure:\"logging\"" },
    .record [({
        name := utf8 "Level"
        tag := utf8 "mapstructure:\"level\" validate:\"oneof=debug info\"" },
      .string (utf8 "loud"))])]

theorem isTextTree_sectionFields : IsTextTree (.record sectionFields) := by
  refine .record (List.forall_mem_singleton.mpr (by decide)) (List.forall_mem_singleton.mpr ?_)
  exact .record (List.forall_mem_singleton.mpr (by decide)) (List.forall_mem_singleton.mpr (.string _))

/-- The section's name is lost where the type of the record has none, and only there. -/
theorem validate_paths_section :
    FailsAt (fun _ => none) (.record sectionFields) [] [utf8 "logging", utf8 "level"]
        (utf8 "oneof") (utf8 "debug info") ∧
      (∃ errors, validate (fun _ => none) (.record [] sectionFields) = .ok (FieldError.failure? errors) ∧
        ⟨utf8 "level", utf8 "must be one of: debug info"⟩ ∈ errors) ∧
      ∃ errors, validate (fun _ => none) (.record (utf8 "Options") sectionFields) =
          .ok (FieldError.failure? errors) ∧
        ⟨utf8 "logging.level", utf8 "must be one of: debug info"⟩ ∈ errors := by
  have hlevel : FailsAt (fun _ => none) (.record sectionFields) [] [utf8 "logging", utf8 "level"]
      (utf8 "oneof") (utf8 "debug info") :=
    .inside rfl List.mem_cons_self rfl (.inside rfl List.mem_cons_self rfl (.here rfl))
  have hunnamed : validate (fun _ => none) (.record [] sectionFields) =
      .ok (FieldError.failure? [⟨utf8 "level", utf8 "must be one of: debug info"⟩]) := rfl
  have hnamed : validate (fun _ => none) (.record (utf8 "Options") sectionFields) =
      .ok (FieldError.failure? [⟨utf8 "logging.level", utf8 "must be one of: debug info"⟩]) := rfl
  refine ⟨hlevel, ?_, ?_⟩
  · obtain ⟨errors, herrors, hmem, -⟩ := validate_paths isTextTree_sectionFields hunnamed
    exact ⟨errors, hunnamed.trans (congrArg _ herrors), (hmem _).mpr ⟨_, _, _, hlevel, by decide⟩⟩
  · obtain ⟨errors, herrors, hmem, -⟩ := validate_paths isTextTree_sectionFields hnamed
    exact ⟨errors, hnamed.trans (congrArg _ herrors), (hmem _).mpr ⟨_, _, _, hlevel, by decide⟩⟩

end ServiceKit.Check
