import ServiceKit.Text.Glyph
import ServiceKit.Text.Keyed

/-!
JSON values. The type of numbers is a parameter: a document that was read holds number literals, a
decoded value floating-point numbers, a log field integers and floating-point numbers.
-/

namespace ServiceKit

inductive Json (ν : Type) where
  | null
  | bool (b : Bool)
  | number (n : ν)
  | string (s : Text)
  | array (elements : List (Json ν))
  | object (members : List (Text × Json ν))
deriving Repr, Inhabited

namespace Json

variable {ν μ ε : Type}

mutual

/-- The same value with its numbers changed, or the reason why the first of them cannot be. -/
def mapNumbers (f : ν → Except ε μ) : Json ν → Except ε (Json μ)
  | null => .ok null
  | bool b => .ok (bool b)
  | number n => do .ok (number (← f n))
  | string s => .ok (string s)
  | array xs => do .ok (array (← mapElements f xs))
  | object ms => do .ok (object (← mapMembers f ms))

def mapElements (f : ν → Except ε μ) : List (Json ν) → Except ε (List (Json μ))
  | [] => .ok []
  | x :: xs => do
    let y ← mapNumbers f x
    let ys ← mapElements f xs
    .ok (y :: ys)

def mapMembers (f : ν → Except ε μ) : List (Text × Json ν) → Except ε (List (Text × Json μ))
  | [] => .ok []
  | (k, x) :: ms => do
    let y ← mapNumbers f x
    let ys ← mapMembers f ms
    .ok ((k, y) :: ys)

end

mutual

/-- The value that a document denotes: members in the order of their keys, and of several members
with one key only the last. -/
def canonical : Json ν → Json ν
  | null => null
  | bool b => bool b
  | number n => number n
  | string s => string s
  | array xs => array (canonicalElements xs)
  | object ms => object (Keyed.ofList (canonicalMembers ms))

def canonicalElements : List (Json ν) → List (Json ν)
  | [] => []
  | x :: xs => canonical x :: canonicalElements xs

def canonicalMembers : List (Text × Json ν) → List (Text × Json ν)
  | [] => []
  | (k, x) :: ms => (k, canonical x) :: canonicalMembers ms

end

mutual

/-- The value as a reader of its text sees it: U+FFFD for each stray byte in strings and keys, and
of several members that then have one key only the last. -/
def settled : Json ν → Json ν
  | null => null
  | bool b => bool b
  | number n => number n
  | string s => string s.sanitize
  | array xs => array (settledElements xs)
  | object ms => object (Keyed.ofList (settledMembers ms))

def settledElements : List (Json ν) → List (Json ν)
  | [] => []
  | x :: xs => settled x :: settledElements xs

def settledMembers : List (Text × Json ν) → List (Text × Json ν)
  | [] => []
  | (k, x) :: ms => (k.sanitize, settled x) :: settledMembers ms

end

def kindName : Json ν → Text
  | null => utf8 "null"
  | bool _ => utf8 "bool"
  | number _ => utf8 "number"
  | string _ => utf8 "string"
  | array _ => utf8 "array"
  | object _ => utf8 "object"

end Json

end ServiceKit
