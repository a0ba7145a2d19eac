import ServiceKit.Number.Shortest

/-!
Floating-point numbers as text. The digits are always the shortest that read back; the layouts
differ in where they go over to an exponent and in how the exponent is written.
-/

namespace ServiceKit.Number

namespace DigitRun

/-- Digits around a point, without an exponent. -/
def positional (r : DigitRun) : Text :=
  if r.digits.isEmpty then [0x30]
  else if r.point ≤ 0 then
    [0x30, 0x2E] ++ List.replicate (-r.point).toNat 0x30 ++ r.digits
  else
    let n := r.point.toNat
    if r.digits.length ≤ n then r.digits ++ List.replicate (n - r.digits.length) 0x30
    else r.digits.take n ++ 0x2E :: r.digits.drop n

/-- One digit before the point, and an exponent of at least `width` digits. -/
def scientific (width : Nat) (r : DigitRun) : Text :=
  let exponent := if r.digits.isEmpty then 0 else r.point - 1
  let mantissa := match r.digits with
    | [] => [0x30]
    | [d] => [d]
    | d :: ds => d :: 0x2E :: ds
  let sign : UInt8 := if exponent < 0 then 0x2D else 0x2B
  mantissa ++ 0x65 :: sign :: padded width (decimal exponent.natAbs)

end DigitRun

/-- Where a layout uses an exponent: below `10 ^ low` and from `10 ^ high` on; and the least number
of digits of a negative and of a positive exponent. -/
structure Layout where
  low : Option Int
  high : Option Int
  negativeWidth : Nat
  positiveWidth : Nat

namespace Layout

/-- Numbers in JSON documents. -/
def json : Layout := ⟨some (-6), some 21, 1, 2⟩

/-- Numbers shown inside messages. -/
def message : Layout := ⟨some (-4), some 6, 2, 2⟩

/-- Numbers used as texts: never an exponent. -/
def plain : Layout := ⟨none, none, 2, 2⟩

def usesExponent (l : Layout) (r : DigitRun) : Bool :=
  !r.digits.isEmpty &&
    ((match l.low with | some k => r.point - 1 < k | none => false)
      || (match l.high with | some k => k ≤ r.point - 1 | none => false))

def write (l : Layout) : Binary64 → Text
  | .finite neg m e =>
    let r := Binary64.shortest m e
    let body :=
      if l.usesExponent r then
        r.scientific (if r.point - 1 < 0 then l.negativeWidth else l.positiveWidth)
      else r.positional
    if neg then 0x2D :: body else body
  | .infinite neg => if neg then utf8 "-Inf" else utf8 "+Inf"
  | .notANumber => utf8 "NaN"

end Layout

end ServiceKit.Number
