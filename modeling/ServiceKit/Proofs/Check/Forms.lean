import Mathlib
import ServiceKit.Proofs.Check.Clauses

/-!
Records whose leaves are texts under rules, with records inside them to any depth. Every leaf that is not
private is checked, whatever is found elsewhere, and what is found stands in the order of the leaves.
-/

namespace ServiceKit.Check

variable {others : OtherTests}

/-- A field of such a record: a text with the chain that its tag writes down, a record that has no
rules of its own, or a private field, whatever its tag and its value are. -/
inductive Form where
  | leaf (field : Field) (value : Text) (links : List Link) (isPublic : field.isPrivate = false)
      (written : tagText "validate" field.tag = chainText links)
  | record (field : Field) (forms : List Form) (isPublic : field.isPrivate = false)
      (untagged : tagText "validate" field.tag = [])
  | hidden (field : Field) (value : Value) (isPrivate : field.isPrivate = true)

/-- A text with its chain, and the names of all fields from the root down to it. -/
structure Leaf where
  names : List Text
  names_ne_nil : names ≠ []
  links : List Link
  value : Text

def Leaf.under (name : Text) (l : Leaf) : Leaf :=
  { l with names := name :: l.names, names_ne_nil := List.cons_ne_nil name l.names }

/-- What is reported of a leaf. -/
def Leaf.report (space : Text) (l : Leaf) : Option FieldError :=
  (violated? l.links l.value).map fun d => ⟨pathAt space l.names, d.message⟩

namespace Form

mutual

/-- The field itself and its value. -/
def entry : Form → Field × Value
  | leaf field value .. => (field, .string value)
  | record field forms .. => (field, .record (entries forms))
  | hidden field value _ => (field, value)

def entries : List Form → List (Field × Value)
  | [] => []
  | f :: forms => entry f :: entries forms

end

mutual

/-- The leaves, each record's in the order of its fields. What is private has none. -/
def leaves : Form → List Leaf
  | leaf field value links .. => [⟨[field.publicName], List.cons_ne_nil _ _, links, value⟩]
  | record field forms .. => (allLeaves forms).map (Leaf.under field.publicName)
  | hidden .. => []

def allLeaves : List Form → List Leaf
  | [] => []
  | f :: forms => leaves f ++ allLeaves forms

end

theorem induct {P : Form → Prop}
    (leaf : ∀ field value links isPublic written, P (.leaf field value links isPublic written))
    (record : ∀ field forms isPublic untagged, (∀ f ∈ forms, P f) →
      P (.record field forms isPublic untagged))
    (hidden : ∀ field value isPrivate, P (.hidden field value isPrivate)) : (f : Form) → P f
  | .leaf field value links isPublic written => leaf field value links isPublic written
  | .record field forms isPublic untagged =>
      record field forms isPublic untagged fun f _ => induct leaf record hidden f
  | .hidden field value isPrivate => hidden field value isPrivate
decreasing_by
  have hlt := List.sizeOf_lt_of_mem ‹f ∈ forms›
  rw [Form.record.sizeOf_spec]
  omega

theorem entries_eq (forms : List Form) : entries forms = forms.map entry := by
  induction forms with
  | nil => rfl
  | cons f forms ih => rw [entries, ih, List.map_cons]

theorem allLeaves_eq (forms : List Form) : allLeaves forms = forms.flatMap leaves := by
  induction forms with
  | nil => rfl
  | cons f forms ih => rw [allLeaves, ih, List.flatMap_cons]

/-- The chain that a field is checked against, if it is checked. -/
def chain? : Form → Option (List Rule)
  | leaf _ _ links .. => some (links.map Link.rule)
  | record .. => some []
  | hidden .. => none

theorem fieldChain_entry (f : Form) : fieldChain others f.entry.1 = .ok f.chain? := by
  cases f with
  | leaf field value links isPublic written => exact fieldChain_chainText isPublic written
  | record field forms isPublic untagged =>
      have hnone : tagText "validate" field.tag = chainText [] := untagged
      exact fieldChain_chainText isPublic hnone
  | hidden field value isPrivate => exact if_pos (Bool.or_eq_true_iff.mpr (.inl isPrivate))

theorem mapM_entries (forms : List Form) :
    ((entries forms).mapM fun f => fieldChain others f.1) = .ok (forms.map chain?) := by
  rw [entries_eq]
  exact mapM_map_ok fun f _ => f.fieldChain_entry

end Form

theorem Leaf.report_under (space name : Text) (l : Leaf) :
    (l.under name).report space = l.report (space ++ name ++ [0x2E]) := by
  rw [report, report, ← pathAt_cons space name l.names_ne_nil]
  rfl

theorem Leaf.filterMap_report_under (space name : Text) (ls : List Leaf) :
    (ls.map (under name)).filterMap (report space) =
      ls.filterMap (report (space ++ name ++ [0x2E])) := by
  rw [List.filterMap_map]
  apply List.filterMap_congr
  intro l _
  exact l.report_under space name

/-- All that is asked of a leaf is applied as it is meant. -/
def Leaf.IsApplied (others : OtherTests) (l : Leaf) : Prop := ∀ k ∈ l.links, k.IsApplied others

namespace Form

theorem foundIn_entry (f : Form) (h : ∀ l ∈ f.leaves, l.IsApplied others) (space : Text) :
    foundIn others space f.chain? f.entry = .ok (f.leaves.filterMap (Leaf.report space)) := by
  induction f using induct generalizing space with
  | leaf field value links isPublic written =>
      have hlinks := h _ List.mem_cons_self
      rw [entry, chain?, foundIn, checkValue, checkLeaf_links hlinks, leaves, List.filterMap_cons,
        Leaf.report]
      cases violated? links value <;> rfl
  | record field forms isPublic untagged ih =>
      have hforms : ∀ f ∈ forms, ∀ l ∈ f.leaves, l.IsApplied others := by
        intro f hf l hl
        refine h (l.under _) (List.mem_map_of_mem ?_)
        rw [allLeaves_eq]
        exact List.mem_flatMap.mpr ⟨f, hf, hl⟩
      rw [entry, chain?, foundIn, checkValue_record (mapM_entries forms), entries_eq,
        checkFields_map fun f hf => ih f hf (hforms f hf) _, leaves, Leaf.filterMap_report_under,
        allLeaves_eq, List.filterMap_flatMap]
  | hidden field value isPrivate => rfl

/-- What is reported of the leaves of a record, in their order. -/
def errors (typeName : Text) (forms : List Form) : List FieldError :=
  (allLeaves forms).filterMap (Leaf.report (rootSpace typeName))

theorem validate_eq (typeName : Text) {forms : List Form}
    (h : ∀ l ∈ allLeaves forms, l.IsApplied others) :
    validate others (.record typeName (entries forms)) =
      .ok (FieldError.failure? (errors typeName forms)) := by
  have hforms : ∀ f ∈ forms, ∀ l ∈ f.leaves, l.IsApplied others := by
    intro f hf l hl
    apply h l
    rw [allLeaves_eq]
    exact List.mem_flatMap.mpr ⟨f, hf, hl⟩
  apply validate_of_chains (mapM_entries forms)
  rw [entries_eq, checkFields_map fun f hf => f.foundIn_entry (hforms f hf) _, errors, allLeaves_eq,
    List.filterMap_flatMap]

/-- A record of texts under rules is accepted exactly if no leaf breaks one. Otherwise the error has one
entry for each leaf that does, in the order of the leaves and with the message of the first rule that
the leaf breaks. -/
theorem validate_entries (others : OtherTests) (typeName : Text) (forms : List Form)
    (h : ∀ l ∈ allLeaves forms, l.IsApplied others) :
    ∃ r, validate others (.record typeName (entries forms)) = .ok r ∧
      (r = none ↔ ∀ l ∈ allLeaves forms, violated? l.links l.value = none) ∧
      ∀ f, r = some f → f.code = Fault.invalidInputCode ∧ f.cause = none ∧
        f.details = some [(utf8 "fields", .array ((errors typeName forms).map FieldError.toJson))] ∧
        f.message = Text.join (utf8 "; ")
          ((errors typeName forms).map fun e => e.field ++ utf8 ": " ++ e.message) := by
  refine ⟨_, validate_eq typeName h, ?_, ?_⟩
  · rw [failure?_eq_none_iff, errors, List.filterMap_eq_nil_iff]
    simp only [Leaf.report, Option.map_eq_none_iff]
  · intro f hf
    rw [failure?_eq_some hf]
    exact ⟨rfl, rfl, rfl, rfl⟩

def levelWords : List Word :=
  [.ofText (utf8 "debug") (by decide) (by decide), .ofText (utf8 "info") (by decide) (by decide)]

/-- Fields in a record between two others, with an empty text that is excused and one that is not, a
private field that breaks its rule, and an embedded record of a private type. -/
def mixedForms : List Form :=
  [.leaf { name := utf8 "Name", tag := utf8 "mapstructure:\"name\" validate:\"required,min=2\"" } []
      [.demand .required, .demand (.min (.ofNat 2))] (by decide) (by decide),
    .record { name := utf8 "logging", home := utf8 "app", embedded := true } [
      .leaf { name := utf8 "Level", tag := utf8 "validate:\"oneof=debug info\"" } (utf8 "loud")
        [.demand (.oneOf levelWords)] (by decide) (by decide),
      .leaf { name := utf8 "NotePrefix", tag := utf8 "validate:\"omitempty,min=2\"" } []
        [.omitEmpty, .demand (.min (.ofNat 2))] (by decide) (by decide)] (by decide) (by decide),
    .hidden { name := utf8 "secret", tag := utf8 "validate:\"required\"", home := utf8 "app" } (.string [])
      (by decide),
    .leaf { name := utf8 "Tag", tag := utf8 "validate:\"min=2,max=3\"" } (utf8 "日本語x")
      [.demand (.min (.ofNat 2)), .demand (.max (.ofNat 3))] (by decide) (by decide)]

theorem isApplied_mixedForms : ∀ l ∈ allLeaves mixedForms, l.IsApplied others := by
  have hmin : (Demand.min (.ofNat 2)).IsApplied others :=
    Demand.isApplied_min (Number.isWhole_decimal 2) (by decide)
  have hmax : (Demand.max (.ofNat 3)).IsApplied others :=
    Demand.isApplied_max (Number.isWhole_decimal 3) (by decide)
  have hwords : (Demand.oneOf levelWords).IsApplied others := Demand.isApplied_oneOf (by decide)
  simp [mixedForms, allLeaves, leaves, Leaf.under, Leaf.IsApplied, Link.IsApplied,
    Demand.isApplied_required, hmin, hmax, hwords]

theorem validate_entries_mixed :
    ∃ f, validate (fun _ => none) (.record (utf8 "Settings") (entries mixedForms)) = .ok (some f) ∧
      f.message = utf8 "name: is required; logging.level: must be one of: debug info; " ++
        utf8 "tag: must be at most 3 characters" := by
  obtain ⟨r, hr, hnone, hsome⟩ :=
    validate_entries (fun _ => none) (utf8 "Settings") mixedForms isApplied_mixedForms
  cases r with
  | none =>
      have hname := hnone.mp rfl _ List.mem_cons_self
      cases hname
  | some f =>
      refine ⟨f, hr, ?_⟩
      rw [(hsome f rfl).2.2.2]
      decide

end Form

end ServiceKit.Check
