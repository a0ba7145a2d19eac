import ServiceKit.Setting.Defect
import ServiceKit.Text.Base64
import ServiceKit.Yaml.Node

/-!
Documents decoded into settings. What is wrong with a document is collected where the decoding can
go on, and ends it where it cannot.
-/

namespace ServiceKit.Yaml

inductive DecodeError where
  | problem (p : Problem)
  /-- Lines about the places that do not fit. -/
  | misfits (lines : List Text)
  | defect (d : Defect)

namespace DecodeError

def message : DecodeError → Text
  | problem p =>
    utf8 "yaml: " ++ (if p.line = 0 then [] else utf8 "line " ++ Number.decimal p.line ++ utf8 ": ")
      ++ p.what
  | misfits lines =>
    utf8 "yaml: unmarshal errors:" ++ lines.flatMap fun l => utf8 "\n  " ++ l
  | defect d => d.message

end DecodeError

namespace Node

def line : Node → Nat
  | scalar l _ _ | sequence l _ _ | mapping l _ _ | aliasOf l _ _ _ => l

/-- The text by which keys are compared: collections have none. -/
def ownText : Node → Text
  | scalar _ _ t => t
  | aliasOf _ _ _ name => name
  | _ => []

def sameKind : Node → Node → Bool
  | scalar .., scalar .. | sequence .., sequence .. | mapping .., mapping .. | aliasOf .., aliasOf .. =>
    true
  | _, _ => false

def isMergeKey : Node → Bool
  | scalar _ tag text => text == utf8 "<<" && tag == Tag.merge
  | _ => false

/-- The tag of a node; that of an alias is the tag of its anchor. -/
def tagOf (anchored : List (Nat × Node)) : Node → Text
  | scalar _ tag _ | sequence _ tag _ | mapping _ tag _ => tag
  | aliasOf _ _ target _ =>
    match anchored.find? fun a => a.1 == target with
    | some (_, scalar _ tag _) | some (_, sequence _ tag _) | some (_, mapping _ tag _) => tag
    | _ => []

end Node

structure Decoding where
  misfits : List Text := []
  /-- Nodes decoded, the document among them, and nodes decoded inside an alias. -/
  decoded : Nat := 1
  aliased : Nat := 0

abbrev Decode := StateT Decoding (Except DecodeError)

namespace Decode

def misfit (line : Text) : Decode Unit :=
  modify fun d => { d with misfits := d.misfits ++ [line] }

def stop {α : Type} (what : Text) : Decode α := throw (.problem { what := what })

/-- A document may not consist of repeated aliases for the most part; the share that is allowed
falls from 99 to 10 in a hundred as the document grows. -/
def excessive (d : Decoding) : Bool :=
  100 < d.aliased && 1000 < d.decoded &&
    (if d.decoded ≤ 400000 then 99 * d.decoded < 100 * d.aliased
      else if 4000000 ≤ d.decoded then 10 * d.decoded < 100 * d.aliased
      else
        -- the allowed share is 0.99 - 0.89 * (decoded - 400000) / 3600000
        (99 * 3600000 - 89 * (d.decoded - 400000)) * d.decoded < 100 * 3600000 * d.aliased)

def count (inAlias : Bool) : Decode Unit := do
  modify fun d => { d with
    decoded := d.decoded + 1
    aliased := if inAlias then d.aliased + 1 else d.aliased }
  if excessive (← get) then stop (utf8 "document contains excessive aliasing")

def ticked (s : Text) : Text := 0x60 :: s ++ [0x60]

/-- A node that cannot be made into a value of a type. The text of a scalar is shown, cut short if it
is long; what is marked as a collection has none to show. -/
def cannotBe (type : String) (line : Nat) (tag text : Text) : Decode Unit :=
  let shown :=
    if tag = Tag.seq ∨ tag = Tag.map then text
    else 0x20 :: ticked (if 10 < text.length then text.take 7 ++ utf8 "..." else text)
  misfit (utf8 "line " ++ Number.decimal line ++ utf8 ": cannot unmarshal " ++ tag ++ shown
    ++ utf8 " into " ++ utf8 type)

def scalarValue (tag text : Text) : Decode Setting :=
  if tag = Tag.binary then
    match Text.base64? text with
    | some data => return .string data
    | none => stop (utf8 "!!binary value contains invalid base64 data")
  else
    match Plain.resolveAs tag text with
    | .ok v => return v
    | .error found =>
      stop (utf8 "cannot decode " ++ found ++ utf8 " " ++ ticked text ++ utf8 " as a " ++ tag)

/-- The keys of a mapping that stand in it twice. -/
def repeated : List Node → List Text
  | [] => []
  | k :: ks =>
    (ks.filterMap fun j =>
      if k.sameKind j && k.ownText == j.ownText then
        some (utf8 "line " ++ Number.decimal j.line ++ utf8 ": mapping key " ++ j.ownText.quoted
          ++ utf8 " already defined at line " ++ Number.decimal k.line)
      else none) ++ repeated ks

/-- Where a node is decoded: the anchored nodes, and the aliases that are open around it. -/
structure Scope where
  anchored : List (Nat × Node)
  around : List Nat := []

def Scope.target? (s : Scope) (n : Nat) : Option Node :=
  (s.anchored.find? fun a => a.1 == n).map Prod.snd

/-- Entries of a map that is being made, with keys as settings. -/
abbrev Entries := List (Setting × Setting)

/-- Equality of keys. A number that is none differs from itself, and zero has no sign. -/
def sameKey (a b : Setting) : Bool :=
  match a, b with
  | .string s, .string t => s == t
  | .int i, .int j => i == j
  | .bool x, .bool y => x == y
  | .float x, .float y => (x == y && x != .notANumber) || (x.isZero && y.isZero)
  | .null, .null => true
  | .time s, .time t => s == t
  | _, _ => false

def setEntry (k v : Setting) : Entries → Entries
  | [] => [(k, v)]
  | e :: es => if sameKey e.1 k then (e.1, v) :: es else e :: setEntry k v es

def wantMap {α : Type} : Decode α :=
  stop (utf8 "map merge requires map or sequence of maps as the value")

/-- Does a value have parts? Then it cannot be compared, and so be no key. -/
def isCollection : Setting → Bool
  | .list _ | .map _ | .table _ => true
  | _ => false

def ownAnchor {α : Type} (name : Text) : Decode α :=
  stop (utf8 "anchor '" ++ name ++ utf8 "' value contains itself")

/-- How the keys of a map are taken: as their own text, or as the values they stand for. -/
inductive KeyForm where
  | text
  | value

def finish : KeyForm → Entries → Setting
  | .text, es =>
    .map (es.foldl (fun m e => match e.1 with
      | .string k => Keyed.put k e.2 m
      | _ => m) [])
  | .value, es => .table es

mutual

def value : Nat → Scope → Node → Decode (Option Setting)
  | 0, _, _ => stop (utf8 "document is too deep")
  | fuel + 1, s, n => do
    count (!s.around.isEmpty)
    match n with
    | .aliasOf _ number target name =>
      if s.around.contains number then
        ownAnchor name
      match s.target? target with
      | some t => value fuel { s with around := number :: s.around } t
      | none => ownAnchor name
    | .scalar _ tag text => return some (← scalarValue tag text)
    | .sequence _ _ items => return some (.list (← elements fuel s items))
    | .mapping _ _ es =>
      let form := if es.all fun e =>
          let tag := e.1.tagOf s.anchored
          tag == Tag.str || tag == Tag.merge
        then KeyForm.text else KeyForm.value
      match ← mapping fuel s form none [] es with
      | some made => return some (finish form made)
      | none => return none

def elements : Nat → Scope → List Node → Decode (List Setting)
  | 0, _, _ => stop (utf8 "document is too deep")
  | _ + 1, _, [] => return []
  | fuel + 1, s, n :: ns => do
    let v ← value fuel s n
    let vs ← elements fuel s ns
    return v.toList ++ vs

/-- The entries of a mapping put into a map. Keys that `merged` holds are passed over and new ones
are added to it; the merged mappings come after the entries of the mapping itself. -/
def mapping : Nat → Scope → KeyForm → Option (List Setting) → Entries → List (Node × Node) →
    Decode (Option Entries)
  | 0, _, _, _, _, _ => stop (utf8 "document is too deep")
  | fuel + 1, s, form, merged, made, es => do
    match repeated (es.map Prod.fst) with
    | line :: lines =>
      (line :: lines).forM misfit
      return none
    | [] =>
      let (made, merged) ← entries fuel s form merged made es
      match (es.filter fun e => e.1.isMergeKey).getLast? with
      | none => return some made
      | some (_, source) =>
        let merged ← match merged with
          | some ks => pure ks
          | none => keyValues fuel s es
        return some (← merge fuel s form merged made source).1

def entries : Nat → Scope → KeyForm → Option (List Setting) → Entries → List (Node × Node) →
    Decode (Entries × Option (List Setting))
  | 0, _, _, _, _, _ => stop (utf8 "document is too deep")
  | _ + 1, _, _, merged, made, [] => return (made, merged)
  | fuel + 1, s, form, merged, made, (kn, vn) :: es => do
    if kn.isMergeKey then entries fuel s form merged made es
    else
      match ← key fuel s form kn with
      | none => entries fuel s form merged made es
      | some k =>
        if merged.isSome && isCollection k then stop (Defect.uncomparable k.typeName).message
        if (merged.getD []).any (sameKey k) then entries fuel s form merged made es
        else
          let merged := merged.map (k :: ·)
          if isCollection k then stop (utf8 "invalid map key: " ++ k.expressionText)
          match ← value fuel s vn with
          | none => entries fuel s form merged made es
          | some v => entries fuel s form merged (setEntry k v made) es

/-- A key. A text is wanted in its own spelling, and no key is made of nothing. -/
def key : Nat → Scope → KeyForm → Node → Decode (Option Setting)
  | 0, _, _, _ => stop (utf8 "document is too deep")
  | fuel + 1, s, .value, n => value fuel s n
  | fuel + 1, s, .text, n => do
    match n with
    | .aliasOf _ number target name =>
      count (!s.around.isEmpty)
      if s.around.contains number then
        ownAnchor name
      match s.target? target with
      | some t => key fuel { s with around := number :: s.around } .text t
      | none => return none
    | .scalar _ tag text =>
      count (!s.around.isEmpty)
      match ← scalarValue tag text with
      | .null => return none
      | .string t => return some (.string t)
      | _ => return some (.string text)
    | .sequence line tag _ | .mapping line tag _ =>
      count (!s.around.isEmpty)
      cannotBe "string" line tag []
      return none

def keyValues : Nat → Scope → List (Node × Node) → Decode (List Setting)
  | 0, _, _ => stop (utf8 "document is too deep")
  | _ + 1, _, [] => return []
  | fuel + 1, s, (kn, _) :: es => do
    let k ← value fuel s kn
    if let some v := k then
      if isCollection v then throw (.defect (.uncomparable v.typeName))
    let ks ← keyValues fuel s es
    return k.toList ++ ks

/-- The mappings under a merge key put into a map that has its own entries already. -/
def merge : Nat → Scope → KeyForm → List Setting → Entries → Node →
    Decode (Entries × List Setting)
  | 0, _, _, _, _, _ => stop (utf8 "document is too deep")
  | fuel + 1, s, form, merged, made, source => do
    match source with
    | .mapping _ _ _ | .aliasOf _ _ _ _ => mergeOne fuel s form merged made source
    | .sequence _ _ items => mergeAll fuel s form merged made items
    | .scalar _ _ _ => wantMap

def mergeAll : Nat → Scope → KeyForm → List Setting → Entries → List Node →
    Decode (Entries × List Setting)
  | 0, _, _, _, _, _ => stop (utf8 "document is too deep")
  | _ + 1, _, _, merged, made, [] => return (made, merged)
  | fuel + 1, s, form, merged, made, n :: ns => do
    let (made, merged) ← mergeOne fuel s form merged made n
    mergeAll fuel s form merged made ns

/-- One mapping, or an alias of one, put into a map. -/
def mergeOne : Nat → Scope → KeyForm → List Setting → Entries → Node →
    Decode (Entries × List Setting)
  | 0, _, _, _, _, _ => stop (utf8 "document is too deep")
  | fuel + 1, s, form, merged, made, n => do
    match n with
    | .mapping _ _ es =>
      count (!s.around.isEmpty)
      match repeated (es.map Prod.fst) with
      | line :: lines =>
        (line :: lines).forM misfit
        return (made, merged)
      | [] =>
        let (made, grown) ← entries fuel s form (some merged) made es
        let merged := grown.getD merged
        match (es.filter fun e => e.1.isMergeKey).getLast? with
        | none => return (made, merged)
        | some (_, source) => merge fuel s form merged made source
    | .aliasOf _ number target name =>
      match s.target? target with
      | some (.mapping line tag es) =>
        count (!s.around.isEmpty)
        if s.around.contains number then
          ownAnchor name
        mergeOne fuel { s with around := number :: s.around } form merged made (.mapping line tag es)
      | some _ => wantMap
      | none => ownAnchor name
    | _ => wantMap

end

/-- The settings of a document whose root must be a mapping. Nothing at the root is no settings. -/
def root (fuel : Nat) (s : Scope) : Node → Decode (Keyed Setting)
  | .mapping _ _ es => do
    count false
    match ← mapping fuel s .text none [] es with
    | some made =>
      match finish .text made with
      | .map m => return m
      | _ => return []
    | none => return []
  | .sequence line tag _ => do
    cannotBe "map[string]interface \x7b\x7d" line tag []
    return []
  | .scalar line tag text => do
    match ← scalarValue tag text with
    | .null => return []
    | _ =>
      cannotBe "map[string]interface \x7b\x7d" line tag text
      return []
  | .aliasOf _ _ _ _ => return []

end Decode

def decode (s : Text) : Except DecodeError (Keyed Setting) :=
  match Document.read s with
  | .error p => .error (.problem p)
  | .ok none => .ok []
  | .ok (some d) =>
    let fuel := 8 * (d.aliases + 1) * (d.depth + 8)
    match (Decode.root fuel ⟨d.anchored, []⟩ d.root).run {} with
    | .error e => .error e
    | .ok (m, st) => if st.misfits.isEmpty then .ok m else .error (.misfits st.misfits)

end ServiceKit.Yaml
