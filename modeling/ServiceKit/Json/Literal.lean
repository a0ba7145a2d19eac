import ServiceKit.Number.Binary64

/-!
Number literals of JSON documents: a sign, digits without a needless zero in front, and optional
digits after a point and an optional exponent.
-/

namespace ServiceKit.Json

/-- A number as it is written. `fraction` has the digits after the point, `exponent` the mark with its
sign and the digits after it. -/
structure Literal where
  negative : Bool
  whole : Text
  fraction : Option Text
  exponent : Option (Text × Text)
deriving DecidableEq, Repr

namespace Literal

def text (l : Literal) : Text :=
  (if l.negative then [0x2D] else []) ++ l.whole
    ++ (match l.fraction with | some ds => 0x2E :: ds | none => [])
    ++ (match l.exponent with | some (mark, ds) => mark ++ ds | none => [])

def exponentValue (l : Literal) : Int :=
  match l.exponent with
  | none => 0
  | some (mark, ds) =>
    if mark.contains 0x2D then -(Number.ofExponentDigits ds : Int) else Number.ofExponentDigits ds

def places (l : Literal) : Text := l.fraction.getD []

/-- The nearest floating-point number, unless the literal is too large. -/
def toBinary64? (l : Literal) : Option Number.Binary64 :=
  Number.Binary64.ofNumeral? l.negative l.whole l.places l.exponentValue

/-- The integer of a literal that has neither a point nor an exponent. -/
def toInt? (l : Literal) : Option Int :=
  match l.fraction, l.exponent with
  | none, none =>
    let n := Number.ofDigits l.whole
    some (if l.negative then -(n : Int) else n)
  | _, _ => none

end Literal

end ServiceKit.Json
