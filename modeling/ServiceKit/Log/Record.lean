import ServiceKit.Fault.Basic
import ServiceKit.Json.Writer
import ServiceKit.Number.Numeral

/-!
What one log line says: members, put down as text one after the other as they are added.
-/

namespace ServiceKit.Log

/-- The value of a member: a text of the program's own, or data of the caller's. -/
inductive Value where
  | text (s : Text)
  | data (x : Detail)

structure Member where
  key : Text
  value : Value

namespace Value

def toJson : Value → Text
  | text s => Json.StringStyle.event.write s
  | data x => x.write .plain Number.Numeral.jsonText

end Value

namespace Member

def toJson (m : Member) : Text := Json.StringStyle.event.write m.key ++ 0x3A :: m.value.toJson

/-- The members for some fields, in the order in which these are listed. -/
def ofFields (fields : Keyed Detail) : List Member := fields.map fun (k, x) => ⟨k, .data x⟩

end Member

/-! ### Documents under way -/

/-- A document that is not closed yet: its opening brace and the members so far. -/
abbrev Draft := Text

namespace Draft

def start : Draft := [0x7B]

/-- One more member. A comma keeps it apart, unless the draft ends with an opening brace. -/
def add (d : Draft) (m : Member) : Draft :=
  (if d.getLast? = some 0x7B then d else d ++ [0x2C]) ++ m.toJson

def addAll (d : Draft) (ms : List Member) : Draft := ms.foldl add d

/-- The members of another draft, as they stand there. -/
def splice (d other : Draft) : Draft :=
  if other.length ≤ 1 then d else (if d.length ≤ 1 then d else d ++ [0x2C]) ++ other.drop 1

/-- The document on a line of its own. -/
def close (d : Draft) : Text := d ++ [0x7D, 0x0A]

end Draft

/-! ### Fields -/

/-- Names of members that the program itself uses. -/
def componentKey : Text := utf8 "component"

def operationKey : Text := utf8 "operation"

def errorKey : Text := utf8 "error"

def fileKey : Text := utf8 "file"

def codeKey : Text := utf8 "code"

def levelKey : Text := utf8 "level"

def timeKey : Text := utf8 "time"

def callerKey : Text := utf8 "caller"

def messageKey : Text := utf8 "message"

/-- Fields of alternating keys and values. A key that is no text is dropped with its value, and so
is a key without a value. The fields form a map, which has no order of its own: this lists them by
key, and a call that is given them in another order writes its members in that order. -/
def fieldsOf : List Detail → Keyed Detail
  | list => Keyed.ofList (pairs list)
where
  pairs : List Detail → List (Text × Detail)
    | .string k :: v :: rest => (k, v) :: pairs rest
    | _ :: _ :: rest => pairs rest
    | _ => []

def errorFields (operation message : Text) : Keyed Detail :=
  Keyed.ofList [(operationKey, .string operation), (errorKey, .string message)]

end ServiceKit.Log
