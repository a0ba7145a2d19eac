import ServiceKit.Config.Assignments
import ServiceKit.Config.Tree
import ServiceKit.Json.Shape
import ServiceKit.Yaml.Decode

/-!
Settings files. The ending of a file's name says how it is written, and keys count without regard to
case.
-/

namespace ServiceKit.Config.SettingsFile

inductive Mistake where
  | unsupported (type : Text)
  | unreadable (why : Text)
  | noReader
  | toml (why : Text)
  | yaml (e : Yaml.DecodeError)
  | json (e : Json.DecodeError)
  | assignments (e : Assignments.Mistake)

namespace Mistake

def message : Mistake → Text
  | unsupported type => utf8 "Unsupported Config Type " ++ Text.quoted type
  | unreadable why => why
  | noReader => utf8 "While parsing config: decoder not found for this format"
  | toml why => utf8 "While parsing config: " ++ why
  | yaml e => utf8 "While parsing config: " ++ e.message
  | json e => utf8 "While parsing config: " ++ e.message
  | assignments e => utf8 "While parsing config: " ++ e.message

end Mistake

inductive Form where
  | yaml
  | json
  | toml
  | assignments
  /-- A form that has a name but no reader. -/
  | other
deriving DecidableEq, Repr

def forms : List (Text × Form) :=
  [(utf8 "json", .json), (utf8 "toml", .toml), (utf8 "yaml", .yaml), (utf8 "yml", .yaml),
    (utf8 "properties", .other), (utf8 "props", .other), (utf8 "prop", .other), (utf8 "hcl", .other),
    (utf8 "tfvars", .other), (utf8 "dotenv", .assignments), (utf8 "env", .assignments),
    (utf8 "ini", .other)]

/-- What follows the last point in the last part of a path. -/
def ending (path : Text) : Text :=
  let name := (Text.split 0x2F path).getLastD []
  match Text.split 0x2E name with
  | [] => []
  | [_] => []
  | parts => parts.getLastD []

/-! ### Keys -/

/-- Entries with their keys in lower case. Of keys that become one, those with capitals count, and of
these the one that is gone through last. -/
def lowerEntries (order : MapOrder) (entries : Tree) : Tree :=
  let isLower (e : Text × Setting) : Bool := e.1.lower == e.1
  let entries := order.arrange entries
  Keyed.ofList ((entries.filter isLower ++ entries.filter fun e => !isLower e).map
    fun (k, v) => (k.lower, v))

section

variable (order : MapOrder)

mutual

/-- A setting with all keys in it in lower case. A key that is no text goes by the text that it has. -/
def lowerKeys : Setting → Setting
  | .map entries => .map (lowerEntries order (lowerValues entries))
  | .table entries => .map (lowerEntries order (lowerPairs entries))
  | .list items => .list (lowerItems items)
  | v => v

def lowerValues : List (Text × Setting) → List (Text × Setting)
  | [] => []
  | (k, v) :: rest => (k, lowerKeys v) :: lowerValues rest

def lowerPairs : List (Setting × Setting) → List (Text × Setting)
  | [] => []
  | (k, v) :: rest => (k.plainText?.getD [], lowerKeys v) :: lowerPairs rest

def lowerItems : List Setting → List Setting
  | [] => []
  | v :: rest => lowerKeys v :: lowerItems rest

end

end

/-! ### Reading -/

mutual

def ofJson : Json Number.Binary64 → Setting
  | .null => .null
  | .bool b => .bool b
  | .number x => .float x
  | .string s => .string s
  | .array items => .list (ofItems items)
  | .object members => .map (ofMembers members)

def ofItems : List (Json Number.Binary64) → List Setting
  | [] => []
  | x :: rest => ofJson x :: ofItems rest

def ofMembers : List (Text × Json Number.Binary64) → List (Text × Setting)
  | [] => []
  | (k, x) :: rest => (k, ofJson x) :: ofMembers rest

end

/-- The settings of a JSON document, which is an object or null. -/
def ofJsonText (s : Text) : Except Json.DecodeError Tree :=
  match Json.read s with
  | .error e => .error (.unreadable e)
  | .ok (.object members) =>
    match Json.decodeAny (.object members) with
    | .ok (.object members) => .ok (ofMembers members)
    | .ok _ => .ok []
    | .error m => .error (.mismatch m)
  | .ok .null => .ok []
  | .ok x => .error (.mismatch ⟨x.kindName, utf8 "map[string]interface \x7b\x7d", none⟩)

/-- A reader of TOML, of which nothing is said here. -/
abbrev TomlReader := Text → Except Text Tree

/-- The settings of a text of a form. Assignments may refer to variables. -/
def parse (toml : TomlReader) (env : Environment) (form : Form) (s : Text) : Except Mistake Tree :=
  match form with
  | .toml => (toml s).mapError .toml
  | .yaml => (Yaml.decode s).mapError .yaml
  | .json => (ofJsonText s).mapError .json
  | .assignments =>
    match Assignments.read env s with
    | .ok entries => .ok (entries.map fun (k, v) => (k, .string v))
    | .error e => .error (.assignments e)
  | .other => .error .noReader

/-- The settings of a file. A file of an unknown form is not even opened. -/
def read (order : MapOrder) (toml : TomlReader) (env : Environment) (path : Text)
    (content : Except Text Text) : Except Mistake Tree := do
  match forms.find? fun f => f.1 == ending path with
  | none => .error (.unsupported (ending path))
  | some (_, form) =>
    let s ← content.mapError .unreadable
    let entries ← parse toml env form s
    .ok (lowerEntries order (lowerValues order entries))

end ServiceKit.Config.SettingsFile
