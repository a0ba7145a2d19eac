import ServiceKit.Json.Reader
import ServiceKit.Json.Writer
import ServiceKit.Number.Numeral
import ServiceKit.Text.Case

/-!
Documents decoded into a wanted shape. A document is read as a whole before any of it is decoded,
so a document that cannot be read is never reported as one of the wrong shape.
-/

namespace ServiceKit.Json

/-- A labelled point of the plane. -/
structure Point where
  x : Int := 0
  y : Int := 0
  label : Text := []
deriving DecidableEq, Repr

inductive Shape where
  | any
  | string
  | int
  | byte
  | float
  | bool
  | intMap
  | strings
  | ints
  | point
deriving DecidableEq, Repr

namespace Shape

abbrev Carrier : Shape → Type
  | any => Json Number.Binary64
  | string => Text
  | int => Int
  | byte => Nat
  | float => Number.Binary64
  | bool => Bool
  | intMap => Keyed Int
  | strings => List Text
  | ints => List Int
  | point => Point

end Shape

/-- Why a document does not have a wanted shape: what was found, the name of the type it was
wanted for, and the field that the type is of. -/
structure Mismatch where
  found : Text
  wanted : Text
  field : Option Text := none
deriving DecidableEq, Repr

namespace Mismatch

def message (m : Mismatch) : Text :=
  utf8 "json: cannot unmarshal " ++ m.found
    ++ (match m.field with
      | none => utf8 " into Go value of type "
      | some f => utf8 " into Go struct field " ++ f ++ utf8 " of type ")
    ++ m.wanted

end Mismatch

inductive DecodeError where
  | unreadable (e : ReadError)
  | mismatch (m : Mismatch)
deriving DecidableEq, Repr

namespace DecodeError

def message : DecodeError → Text
  | unreadable e => e.message
  | mismatch m => m.message

end DecodeError

/-- A number that does not fit is shown with its literal. -/
def numberMismatch (wanted : Text) (l : Literal) : Mismatch :=
  ⟨utf8 "number " ++ l.text, wanted, none⟩

def floatOf (l : Literal) : Except Mismatch Number.Binary64 :=
  match l.toBinary64? with
  | some x => .ok x
  | none => .error (numberMismatch (utf8 "float64") l)

def intOf (l : Literal) : Except Mismatch Int :=
  match l.toInt? with
  | some i => if Number.fitsInt64 i then .ok i else .error (numberMismatch (utf8 "int") l)
  | none => .error (numberMismatch (utf8 "int") l)

/-- A byte is written without a sign, even if it is zero. -/
def byteOf (l : Literal) : Except Mismatch Nat :=
  match l.negative, l.toInt? with
  | false, some (.ofNat n) => if n < 256 then .ok n else .error (numberMismatch (utf8 "uint8") l)
  | _, _ => .error (numberMismatch (utf8 "uint8") l)

def wrongKind {α : Type} (wanted : String) (x : Json Literal) : Except Mismatch α :=
  .error ⟨x.kindName, utf8 wanted, none⟩

/-- Numbers become floating-point numbers and objects keep one member a key. -/
def decodeAny (x : Json Literal) : Except Mismatch (Json Number.Binary64) := do
  .ok (← x.mapNumbers floatOf).canonical

/-- A null stands for the value that is there already. -/
def decodeString (old : Text) : Json Literal → Except Mismatch Text
  | .null => .ok old
  | .string s => .ok s
  | x => wrongKind "string" x

def decodeInt (old : Int) : Json Literal → Except Mismatch Int
  | .null => .ok old
  | .number l => intOf l
  | x => wrongKind "int" x

/-- The error at a field is reported with the field's name. -/
def atField {α : Type} (field : String) (r : Except Mismatch α) : Except Mismatch α :=
  r.mapError fun m => { m with field := some (utf8 field) }

/-- One member of a point. Keys are compared without regard to case, and other keys are passed
over. -/
def decodePointMember (p : Point) (key : Text) (x : Json Literal) : Except Mismatch Point :=
  if Text.sameLetters key (utf8 "x") then do
    .ok { p with x := ← atField "point.x" (decodeInt p.x x) }
  else if Text.sameLetters key (utf8 "y") then do
    .ok { p with y := ← atField "point.y" (decodeInt p.y x) }
  else if Text.sameLetters key (utf8 "label") then do
    .ok { p with label := ← atField "point.label" (decodeString p.label x) }
  else .ok p

namespace Shape

/-- A document that is not null, decoded. -/
def decodeValue : (shape : Shape) → Json Literal → Except Mismatch shape.Carrier
  | any, x => decodeAny x
  | string, x => decodeString [] x
  | int, x => decodeInt 0 x
  | byte, .number l => byteOf l
  | byte, x => wrongKind "uint8" x
  | float, .number l => floatOf l
  | float, x => wrongKind "float64" x
  | bool, .bool b => .ok b
  | bool, x => wrongKind "bool" x
  | intMap, .object ms => do
    let entries ← ms.mapM fun (k, x) => do .ok (k, ← decodeInt 0 x)
    .ok (Keyed.ofList entries)
  | intMap, x => wrongKind "map[string]int" x
  | strings, .array xs => xs.mapM (decodeString [])
  | strings, x => wrongKind "[]string" x
  | ints, .array xs => xs.mapM (decodeInt 0)
  | ints, x => wrongKind "[]int" x
  | point, .object ms => ms.foldlM (fun p (k, x) => decodePointMember p k x) {}
  | point, x => wrongKind "main.point" x

/-- The value of a text, and nothing for a null. -/
def decode (shape : Shape) (s : Text) : Except DecodeError (Option shape.Carrier) :=
  match read s with
  | .error e => .error (.unreadable e)
  | .ok .null => .ok none
  | .ok x =>
    match shape.decodeValue x with
    | .error m => .error (.mismatch m)
    | .ok v => .ok (some v)

/-- A value as a JSON document, closed by a line feed. -/
def writeLine : (shape : Shape) → shape.Carrier → Text
  | any, x => x.write .plain Number.Layout.json.write ++ [0x0A]
  | string, s => line (.string s)
  | int, i => line (.number (.int i))
  | byte, n => line (.number (.int n))
  | float, x => line (.number (.float x))
  | bool, b => line (.bool b)
  | intMap, m => line (.object (m.map fun (k, i) => (k, .number (.int i))))
  | strings, ss => line (.array (ss.map .string))
  | ints, is => line (.array (is.map fun i => .number (.int i)))
  | point, p =>
    line (.object [(utf8 "x", .number (.int p.x)), (utf8 "y", .number (.int p.y)),
      (utf8 "label", .string p.label)])
where
  line (x : Json Number.Numeral) : Text := x.write .plain Number.Numeral.jsonText ++ [0x0A]

end Shape

/-- A number that a document can have, or why it cannot. -/
def finiteOf (x : Number.Binary64) : Except Text Number.Binary64 :=
  if x.isFinite then .ok x
  else .error (utf8 "json: unsupported value: " ++ Number.Layout.json.write x)

/-- A value as a JSON document, or why it cannot be one. -/
def encodeLine (v : Json Number.Binary64) : Except Text Text := do
  let _ ← v.mapNumbers finiteOf
  .ok (Shape.writeLine .any v)

end ServiceKit.Json
