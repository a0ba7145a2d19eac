import ServiceKit.Number.Layout

/-!
Numbers as programs hand them over: integers of 64 bits and floating-point numbers.
-/

namespace ServiceKit.Number

inductive Numeral where
  | int (i : Int)
  | float (x : Binary64)
deriving DecidableEq, Repr

def fitsInt64 (i : Int) : Bool := -(pow2 63 : Int) ≤ i && i < (pow2 63 : Int)

namespace Numeral

def jsonText : Numeral → Text
  | int i => integer i
  | float x => Layout.json.write x

end Numeral

end ServiceKit.Number
