import ServiceKit.Number.Binary64

/-!
The shortest decimal that reads back as a given value.
-/

namespace ServiceKit.Number

/-- Decimal digits without zeros at either end, and the position of the point counted from the
first digit: `⟨[1, 5], 1⟩` is 1.5. Zero has no digits. -/
structure DigitRun where
  digits : Text
  point : Int
deriving DecidableEq, Repr

namespace DigitRun

/-- The run of `coefficient * 10 ^ exponent`. -/
def ofDecimal (coefficient : Nat) (exponent : Int) : DigitRun :=
  if coefficient = 0 then ⟨[], 0⟩
  else
    let ds := decimal coefficient
    ⟨Text.dropTailWhile (· == 0x30) ds, (ds.length : Int) + exponent⟩

end DigitRun

namespace Binary64

/-- A positive value between the midpoints to its neighbours, as numerators over one denominator.
The midpoints themselves read back as the value when `closed` holds. -/
structure Span where
  low : Nat
  value : Nat
  high : Nat
  den : Nat
  closed : Bool

/-- The neighbour below a power of two is only half as far away as the one above. -/
def span (m : Nat) (e : Int) : Span :=
  let low := if m = pow2 52 ∧ minExponent < e then 4 * m - 1 else 4 * m - 2
  let k := e - 2
  let up := if 0 ≤ k then pow2 k.toNat else 1
  let den := if 0 ≤ k then 1 else pow2 (-k).toNat
  ⟨low * up, 4 * m * up, (4 * m + 2) * up, den, m % 2 == 0⟩

namespace Span

/-- Is `c * 10 ^ j` at or above the lower midpoint? -/
def aboveLow (s : Span) (c : Nat) (j : Int) : Bool :=
  let (num, den) := fractionOf c j
  if s.closed then s.low * den ≤ num * s.den else s.low * den < num * s.den

def belowHigh (s : Span) (c : Nat) (j : Int) : Bool :=
  let (num, den) := fractionOf c j
  if s.closed then num * s.den ≤ s.high * den else num * s.den < s.high * den

/-- The least `k` for which the value is below `10 ^ k`, looked for near an estimate. -/
def scale (s : Span) (estimate : Int) : Int :=
  let below (k : Int) : Bool :=
    let (num, den) := fractionOf 1 k
    s.value * den < num * s.den
  if below estimate then estimate
  else if below (estimate + 1) then estimate + 1
  else estimate + 2

/-- The neighbour of the value on the grid `10 ^ j` that reads back, the nearer one of two and the
even one of two equally near. -/
def onGrid? (s : Span) (j : Int) : Option Nat :=
  let (num, den) :=
    if 0 ≤ j then (s.value, s.den * pow10 j.toNat) else (s.value * pow10 (-j).toNat, s.den)
  let c := num / den
  match s.aboveLow c j, s.belowHigh (c + 1) j with
  | true, true => some (divNearest num den)
  | true, false => some c
  | false, true => some (c + 1)
  | false, false => none

/-- The first grid, from coarse to fine, with a neighbour that reads back. -/
def search (s : Span) (k : Int) : Nat → Nat → DigitRun
  | 0, n => DigitRun.ofDecimal (s.value / s.den) (k - n)
  | fuel + 1, n =>
    match s.onGrid? (k - n) with
    | some c => DigitRun.ofDecimal c (k - n)
    | none => search s k fuel (n + 1)

end Span

/-- The digits of a positive value. Seventeen digits are always enough. -/
def shortest (m : Nat) (e : Int) : DigitRun :=
  if m = 0 then ⟨[], 0⟩
  else
    let s := span m e
    let estimate := ((Nat.log2 m : Int) + e) * 30103 / 100000
    s.search (s.scale estimate) 17 1

end Binary64

end ServiceKit.Number
