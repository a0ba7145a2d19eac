import ServiceKit.Number.Digits

/-!
Floating-point numbers of 64 bits, as exact values: a sign, a whole number below 2^53 and a power of
two. Reading a decimal takes the nearest such value, the even one of two equally near, and fails
from 2^1024 - 2^970 on.
-/

namespace ServiceKit.Number

inductive Binary64 where
  /-- The value `mantissa * 2 ^ exponent`, with the sign kept for zero too. -/
  | finite (negative : Bool) (mantissa : Nat) (exponent : Int)
  | infinite (negative : Bool)
  | notANumber
deriving DecidableEq, Repr

/-- A decimal number `coefficient * 10 ^ exponent` as it is written down. -/
structure Decimal where
  negative : Bool
  coefficient : Nat
  exponent : Int
deriving DecidableEq, Repr

namespace Binary64

def minExponent : Int := -1074

/-- A quotient rounded to the nearest whole number, the even one of two equally near. -/
def divNearest (n d : Nat) : Nat :=
  let q := n / d
  let r := n % d
  if 2 * r < d then q
  else if d < 2 * r then q + 1
  else if q % 2 = 0 then q else q + 1

/-- The two parts of a fraction divided by a power of two. -/
def unscale (num den : Nat) (e : Int) : Nat × Nat :=
  if 0 ≤ e then (num, den * pow2 e.toNat) else (num * pow2 (-e).toNat, den)

/-- The exponent at which a fraction has 53 bits, or the least exponent. -/
def exponentOf (num den : Nat) : Int :=
  let e := (Nat.log2 num : Int) - (Nat.log2 den : Int) - 53
  let (n, d) := unscale num den e
  max (if pow2 53 ≤ n / d then e + 1 else e) minExponent

/-- The value nearest to a positive fraction. -/
def nearest (negative : Bool) (num den : Nat) : Binary64 :=
  let e := exponentOf num den
  let (n, d) := unscale num den e
  let m := divNearest n d
  if m = pow2 53 then finite negative (pow2 52) (e + 1) else finite negative m e

def zero (negative : Bool) : Binary64 := finite negative 0 minExponent

/-- The least magnitude that no finite value is near to. -/
def overflowBound : Nat := pow2 1024 - pow2 970

/-- A fraction as a value, unless it is too large. -/
def ofFraction? (negative : Bool) (num den : Nat) : Option Binary64 :=
  if overflowBound * den ≤ num then none else some (nearest negative num den)

/-- The two parts of the fraction that a decimal is. -/
def fractionOf (coefficient : Nat) (exponent : Int) : Nat × Nat :=
  if 0 ≤ exponent then (coefficient * pow10 exponent.toNat, 1)
  else (coefficient, pow10 (-exponent).toNat)

/-- A decimal as a value, unless it is too large. A decimal whose first digit is far from the point
is told apart before its power of ten is computed. -/
def ofDecimal? (d : Decimal) : Option Binary64 :=
  if d.coefficient = 0 then some (zero d.negative)
  else
    let magnitude := ((decimal d.coefficient).length : Int) + d.exponent
    if 310 < magnitude then none
    else if magnitude < -330 then some (zero d.negative)
    else
      let (num, den) := fractionOf d.coefficient d.exponent
      ofFraction? d.negative num den

/-- A numeral as a value, by its digits before and after the point and its exponent. -/
def ofNumeral? (negative : Bool) (whole places : Text) (exponent : Int) : Option Binary64 :=
  ofDecimal? ⟨negative, ofDigits (whole ++ places), exponent - places.length⟩

/-- A whole number as the nearest value; a number of 64 bits is never too large. -/
def ofInt (i : Int) : Binary64 :=
  if i = 0 then zero false else nearest (decide (i < 0)) i.natAbs 1

def isFinite : Binary64 → Bool
  | finite .. => true
  | _ => false

def isZero : Binary64 → Bool
  | finite _ m _ => m == 0
  | _ => false

/-- The order of values: what is no number comes first, and zero has no sign. -/
def le : Binary64 → Binary64 → Bool
  | notANumber, _ => true
  | _, notANumber => false
  | infinite true, _ => true
  | _, infinite false => true
  | infinite false, _ => false
  | _, infinite true => false
  | finite s m e, finite t n f =>
    let low := if e ≤ f then e else f
    let signed (negative : Bool) (m : Nat) (e : Int) : Int :=
      let scaled : Int := m * pow2 (e - low).toNat
      if negative then -scaled else scaled
    signed s m e ≤ signed t n f

/-- The whole number that a value is, if it is one. -/
def toInt? : Binary64 → Option Int
  | finite neg m e =>
    let whole? : Option Nat :=
      if 0 ≤ e then some (m * pow2 e.toNat)
      else if m % pow2 (-e).toNat = 0 then some (m / pow2 (-e).toNat) else none
    whole?.map fun n => if neg then -(n : Int) else n
  | _ => none

end Binary64

end ServiceKit.Number
