import ServiceKit.Number.Digits

/-!
Uses of a setting that its kind does not allow and that nothing guards against.
-/

namespace ServiceKit

/-- What ends the program on the spot instead of being reported as an error. -/
inductive Defect where
  /-- A value of this type stands where only values stand that can be compared. -/
  | uncomparable (typeName : Text)
  /-- An element is asked for that comes before the first one of a list. -/
  | beforeFirst (index : Int)
deriving DecidableEq, Repr

def Defect.message : Defect → Text
  | uncomparable typeName => utf8 "runtime error: hash of unhashable type " ++ typeName
  | beforeFirst index =>
    utf8 "runtime error: index out of range [" ++ Number.integer index ++ utf8 "]"

end ServiceKit
