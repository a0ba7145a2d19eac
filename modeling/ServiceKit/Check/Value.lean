import ServiceKit.Check.FieldTag
import ServiceKit.Number.Binary64
import ServiceKit.Text.Quoted

/-!
Values that may be checked.
-/

namespace ServiceKit.Check

/-- A value that may be checked. A list or a pointer may be missing. -/
inductive Value where
  | string (s : Text)
  | int (i : Int)
  | float (x : Number.Binary64)
  | bool (b : Bool)
  | list (items : Option (List Value))
  /-- If it is not given, `target` is only an example of what it could point to. -/
  | pointer (given : Bool) (target : Value)
  | record (fields : List (Field × Value))

namespace Value

mutual

/-- The name of the type of a value. A record has none of its own, so its fields are listed. -/
def typeName : Value → Text
  | string _ => utf8 "string"
  | int _ => utf8 "int"
  | float _ => utf8 "float64"
  | bool _ => utf8 "bool"
  | list _ => utf8 "[]string"
  | pointer _ target => 0x2A :: target.typeName
  | record fields =>
    utf8 "struct \x7b" ++ Text.join [0x3B] (fieldTypes fields)
      ++ (if fields.isEmpty then [] else [0x20]) ++ utf8 "\x7d"

def fieldTypes : List (Field × Value) → List Text
  | [] => []
  | (f, v) :: fields =>
    (0x20 :: f.name ++ 0x20 :: v.typeName ++ (if f.tag.isEmpty then [] else 0x20 :: f.tag.quoted))
      :: fieldTypes fields

end

mutual

/-- Can two values of the type be compared as a whole? Lists cannot. -/
def isComparable : Value → Bool
  | list _ => false
  | record fields => areComparable fields
  | _ => true

def areComparable : List (Field × Value) → Bool
  | [] => true
  | (_, v) :: fields => isComparable v && areComparable fields

end

mutual

/-- Is a value the one that a field has when nothing is given for it? A record that can be compared
as a whole is, and then zero has no sign in it. -/
def isZero (unsigned : Bool) : Value → Bool
  | string s => s.isEmpty
  | int i => i == 0
  | float x => x.isZero && (unsigned || x == .zero false)
  | bool b => !b
  | list items => items.isNone
  | pointer given _ => !given
  | record fields => areZero (areComparable fields) fields

def areZero (unsigned : Bool) : List (Field × Value) → Bool
  | [] => true
  | (_, v) :: fields => isZero unsigned v && areZero unsigned fields

end

/-- Is there a value? What a pointer points to counts even if it is empty. -/
def isGiven (pointed : Bool) : Value → Bool
  | list items => items.isSome
  | v => pointed || !v.isZero false

end Value

end ServiceKit.Check
