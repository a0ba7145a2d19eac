import ServiceKit.Config.Service
import ServiceKit.Config.Tree
import ServiceKit.Number.Layout

/-!
Settings decoded into a service configuration. Values that are near enough to what is wanted are
converted; what is not is reported, field after field, and its field stays as it was.
-/

namespace ServiceKit.Config

/-- A setting that does not fit its field. -/
inductive Mismatch where
  | text (key : Text) (found : Setting)
  | flagWord (key word : Text)
  | flag (key : Text) (now : Bool) (found : Setting)
  | group (key : Text) (found : Setting)

namespace Mismatch

def message : Mismatch → Text
  | text key found =>
    0x27 :: key ++ utf8 "' expected type 'string', got unconvertible type '" ++ found.typeName
      ++ utf8 "', value: '" ++ found.messageText ++ [0x27]
  | flagWord key word =>
    utf8 "cannot parse '" ++ key ++ utf8 "' as bool: strconv.ParseBool: parsing " ++ word.quoted
      ++ utf8 ": invalid syntax"
  | flag key now found =>
    0x27 :: key ++ utf8 "' expected type '%!s(bool=" ++ utf8 (if now then "true" else "false")
      ++ utf8 ")', got unconvertible type '" ++ found.expressionText ++ utf8 "', value: '"
      ++ found.expressionText ++ [0x27]
  | group key found => 0x27 :: key ++ utf8 "' expected a map, got '" ++ found.kindName ++ [0x27]

def report (ms : List Mismatch) : Text :=
  utf8 "decoding failed due to the following error(s):\n\n" ++ Text.join [0x0A] (ms.map message)

end Mismatch

/-- The setting of a field: the key is looked for as it is, and then without regard to case. -/
def fieldSetting? (name : Text) (t : Tree) : Option Setting :=
  match Keyed.find? name t with
  | some v => some v
  | none => (List.find? (fun e => Text.sameLetters e.1 name) t).map Prod.snd

def textOf? : Setting → Option Text
  | .string s => some s
  | .bool b => some (if b then utf8 "1" else utf8 "0")
  | .int i => some (Number.integer i)
  | .float x => some (Number.Layout.plain.write x)
  | _ => none

/-- The setting of a text field, if there is one. -/
def decodeText (key name : String) (t : Tree) : Except Mismatch (Option Text) :=
  match Tree.given? (fieldSetting? (utf8 name) t) with
  | none => .ok none
  | some v =>
    match textOf? v with
    | some s => .ok (some s)
    | none => .error (.text (utf8 key) v)

/-- The setting of a field that is true or false, if there is one. -/
def decodeFlag (key name : String) (now : Bool) (t : Tree) : Except Mismatch (Option Bool) :=
  match Tree.given? (fieldSetting? (utf8 name) t) with
  | none => .ok none
  | some (.bool b) => .ok (some b)
  | some (.int i) => .ok (some (i != 0))
  | some (.float x) => .ok (some (!x.isZero))
  | some (.string s) =>
    match Number.boolOf? s with
    | some b => .ok (some b)
    | none => if s.isEmpty then .ok (some false) else .error (.flagWord (utf8 key) s)
  | some v => .error (.flag (utf8 key) now v)

/-- The settings of a group of fields. A point in time has no settings in it. -/
def decodeGroup (name : String) (t : Tree) : Except Mismatch Tree :=
  match Tree.given? (fieldSetting? (utf8 name) t) with
  | none => .ok []
  | some (.time _) => .ok []
  | some v =>
    match Tree.entries? v with
    | some entries => .ok entries
    | none => .error (.group (utf8 name) v)

/-- A field after decoding, and what went wrong. -/
def settle {α : Type} (now : α) : Except Mismatch (Option α) → α × List Mismatch
  | .ok (some v) => (v, [])
  | .ok none => (now, [])
  | .error m => (now, [m])

def decodeLogging (c : Log.Config) (t : Tree) : Log.Config × List Mismatch :=
  let (level, e1) := settle c.level (decodeText "logging.level" "level" t)
  let (format, e2) := settle c.format (decodeText "logging.format" "format" t)
  let (output, e3) := settle c.output (decodeText "logging.output" "output" t)
  let (noColor, e4) := settle c.noColor (decodeFlag "logging.no_color" "no_color" c.noColor t)
  let (timestamp, e5) :=
    settle c.timestamp (decodeFlag "logging.timestamp" "timestamp" c.timestamp t)
  let (caller, e6) := settle c.caller (decodeFlag "logging.caller" "caller" c.caller t)
  let (label, e7) := match decodeText "logging.prefix" "prefix" t with
    | .ok (some s) => (some s, [])
    | .ok none => (c.label, [])
    | .error m => (c.label, [m])
  (⟨level, format, output, noColor, timestamp, caller, label⟩, e1 ++ e2 ++ e3 ++ e4 ++ e5 ++ e6 ++ e7)

def decodeFormat (o : FormatOptions) (t : Tree) : FormatOptions × List Mismatch :=
  let (trim, e1) := settle o.trim (decodeFlag "format.trim" "trim" o.trim t)
  let (lowercase, e2) := settle o.lowercase (decodeFlag "format.lowercase" "lowercase" o.lowercase t)
  (⟨trim, lowercase⟩, e1 ++ e2)

/-- A group of fields after decoding. -/
def settleGroup {α : Type} (now : α) (decode : α → Tree → α × List Mismatch) :
    Except Mismatch Tree → α × List Mismatch
  | .ok t => decode now t
  | .error m => (now, [m])

/-- Settings decoded into a configuration: fields without a setting keep their values. -/
def decodeService (c : ServiceConfig) (t : Tree) : ServiceConfig × List Mismatch :=
  let (name, e1) := settle c.name (decodeText "name" "name" t)
  let (environment, e2) := settle c.environment (decodeText "environment" "environment" t)
  let (debug, e3) := settle c.debug (decodeFlag "debug" "debug" c.debug t)
  let (logging, e4) := settleGroup c.logging decodeLogging (decodeGroup "logging" t)
  let (format, e5) := settleGroup c.format decodeFormat (decodeGroup "format" t)
  (⟨name, environment, debug, logging, format⟩, e1 ++ e2 ++ e3 ++ e4 ++ e5)

end ServiceKit.Config
