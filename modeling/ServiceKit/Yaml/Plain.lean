import ServiceKit.Number.Reading
import ServiceKit.Setting.Basic

/-!
What a plain scalar means: its tag and its value.
-/

namespace ServiceKit.Yaml

namespace Tag

def null : Text := utf8 "!!null"

def bool : Text := utf8 "!!bool"

def str : Text := utf8 "!!str"

def int : Text := utf8 "!!int"

def float : Text := utf8 "!!float"

def timestamp : Text := utf8 "!!timestamp"

def seq : Text := utf8 "!!seq"

def map : Text := utf8 "!!map"

def binary : Text := utf8 "!!binary"

def merge : Text := utf8 "!!merge"

def longLead : Text := utf8 "tag:yaml.org,2002:"

/-- A tag of the standard schema in its short form. -/
def short (tag : Text) : Text :=
  match Text.dropLead? longLead tag with
  | some rest => utf8 "!!" ++ rest
  | none => tag

end Tag

namespace Plain

open Number

/-- Words with a meaning of their own. -/
def word? (s : Text) : Option (Text × Setting) :=
  let isOne (words : List String) : Bool := words.any (utf8 · == s)
  if isOne ["true", "True", "TRUE"] then some (Tag.bool, .bool true)
  else if isOne ["false", "False", "FALSE"] then some (Tag.bool, .bool false)
  else if isOne ["", "~", "null", "Null", "NULL"] then some (Tag.null, .null)
  else if isOne [".nan", ".NaN", ".NAN"] then some (Tag.float, .float .notANumber)
  else if isOne [".inf", ".Inf", ".INF", "+.inf", "+.Inf", "+.INF"] then
    some (Tag.float, .float (.infinite false))
  else if isOne ["-.inf", "-.Inf", "-.INF"] then some (Tag.float, .float (.infinite true))
  else none

/-- An integer in a base, after a mark that announces the base. -/
def marked? (mark : String) (base : Nat) (s : Text) : Option Setting :=
  match Text.dropLead? (utf8 mark) s with
  | some digits =>
    match integerOf base digits with
    | .ok i => some (.int i)
    | .error _ => (naturalOf base digits).toOption.map fun n => .int n
  | none =>
    match Text.dropLead? (0x2D :: utf8 mark) s with
    | some digits => (integerOf base (0x2D :: digits)).toOption.map .int
    | none => none

/-- A text that starts with a sign or a digit as a number. -/
def number? (s : Text) : Option (Text × Setting) :=
  let plain := s.filter (· != 0x5F)
  let int? : Option Setting :=
    match integerOf 0 plain with
    | .ok i => some (.int i)
    | .error _ => (naturalOf 0 plain).toOption.map fun n => .int n
  match int? with
  | some v => some (Tag.int, v)
  | none =>
    match decimalFloatOf plain with
    | .ok x => some (Tag.float, .float x)
    | .error _ =>
      match marked? "0b" 2 plain with
      | some v => some (Tag.int, v)
      | none => (marked? "0o" 8 plain).map fun v => (Tag.int, v)

/-- The tag and the value of a plain scalar without a tag of its own. Dates are looked for only if
`dated` holds. -/
def resolveWith (dated : Bool) (s : Text) : Text × Setting :=
  let first := s.headD 0x4E
  let text := (Tag.str, Setting.string s)
  if s.isEmpty
    || [0x79, 0x59, 0x6E, 0x4E, 0x74, 0x54, 0x66, 0x46, 0x6F, 0x4F, 0x7E].contains first
  then (word? s).getD text
  else if first = 0x2E then
    match word? s with
    | some v => v
    | none =>
      match floatOf s with
      | .ok x => (Tag.float, .float x)
      | .error _ => text
  else if first = 0x2B ∨ first = 0x2D ∨ Text.isDigit first then
    match word? s with
    | some v => v
    | none =>
      match if dated then Timestamp.ofText? s else none with
      | some t => (Tag.timestamp, .time t)
      | none => (number? s).getD text
  else text

def resolve (s : Text) : Text × Setting := resolveWith true s

/-- The tags that say how a text is to be read. Under any other tag it stands for itself. -/
def readable : List Text := [Tag.bool, Tag.int, Tag.float, Tag.null, Tag.timestamp]

/-- The value of a scalar under a tag, or the tag that its text has instead. -/
def resolveAs (tag : Text) (s : Text) : Except Text Setting :=
  if !readable.contains tag then .ok (.string s)
  else
    let (found, v) := resolveWith (tag = Tag.timestamp) s
    if tag = found then .ok v
    else match v with
      | .int i =>
        if tag = Tag.float ∧ !Setting.isWide i then .ok (.float (Binary64.ofInt i)) else .error found
      | _ => .error found

end Plain

end ServiceKit.Yaml
