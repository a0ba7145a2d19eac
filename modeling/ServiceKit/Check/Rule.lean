import ServiceKit.Check.Value
import ServiceKit.Number.Reading

/-!
Rules that a field may have to follow, and chains of them as tags write them down.
-/

namespace ServiceKit.Check

/-- Why a tag cannot be used at all: a mistake of the program that carries it. -/
inductive TagFault where
  | emptyRule (field : Text)
  | unknownRule (rule field : Text)
  | badInteger (param : Text) (why : Number.NumberFault)
  | badFloat (param : Text) (why : Number.NumberFault)
  | badType (type : Text)
  | badDive
deriving DecidableEq, Repr

namespace TagFault

def message : TagFault → Text
  | emptyRule field => utf8 "Invalid validation tag on field '" ++ field ++ utf8 "'"
  | unknownRule rule field =>
    utf8 "Undefined validation function '" ++ rule ++ utf8 "' on field '" ++ field ++ utf8 "'"
  | badInteger param why =>
    utf8 "strconv.ParseInt: parsing " ++ param.quoted ++ utf8 ": " ++ why.message
  | badFloat param why =>
    utf8 "strconv.ParseFloat: parsing " ++ param.quoted ++ utf8 ": " ++ why.message
  | badType type => utf8 "Bad field type " ++ type
  | badDive => utf8 "dive error! can't dive on a non slice or map"

end TagFault

inductive Comparison where
  | atLeast
  | atMost
  | exactly
  | above
  | below
deriving DecidableEq, Repr

inductive Test where
  | required
  | size (how : Comparison)
  | oneOf
  | alphanumeric
  /-- A test that is not spelled out here. -/
  | other
deriving DecidableEq, Repr

/-- The tests that are not spelled out here, by name. A test is told its parameter, whether the value
is pointed to, and the value. -/
abbrev OtherTests := Text → Option (Text → Bool → Value → Except TagFault Bool)

/-- A test with the name it goes by and its parameter. -/
structure NamedTest where
  test : Test
  name : Text
  param : Option Text
deriving DecidableEq, Repr

inductive Rule where
  /-- Nothing more is asked of an empty value. -/
  | omitEmpty
  /-- What follows is asked of each element. -/
  | dive
  | test (t : NamedTest)
  /-- One of several tests has to pass. -/
  | anyOf (ts : List NamedTest)
deriving DecidableEq, Repr

def tests : List (Text × Test) :=
  [(utf8 "required", .required), (utf8 "min", .size .atLeast), (utf8 "max", .size .atMost),
    (utf8 "len", .size .exactly), (utf8 "gte", .size .atLeast), (utf8 "lte", .size .atMost),
    (utf8 "gt", .size .above), (utf8 "lt", .size .below), (utf8 "oneof", .oneOf),
    (utf8 "alphanum", .alphanumeric)]

/-- Every occurrence of a text that is not empty changed into one byte. -/
def replaceWith (old : Text) (new : UInt8) : Nat → Text → Text
  | 0, s => s
  | _ + 1, [] => []
  | fuel + 1, b :: rest =>
    match Text.dropLead? old (b :: rest) with
    | some rest' => new :: replaceWith old new fuel rest'
    | none => b :: replaceWith old new fuel rest

/-- A parameter, in which a comma and a bar are written by their numbers. -/
def paramText (s : Text) : Text :=
  let s := replaceWith (utf8 "0x2C") 0x2C (s.length + 1) s
  replaceWith (utf8 "0x7C") 0x7C (s.length + 1) s

/-- A test as it is written: a name, and a parameter after an equals sign. -/
def NamedTest.ofText (others : OtherTests) (field s : Text) : Except TagFault NamedTest :=
  let (name, param) := match Text.cut? 0x3D s with
    | some (name, param) => (name, some (paramText param))
    | none => (s, none)
  if name.isEmpty then .error (.emptyRule field)
  else match tests.find? fun t => t.1 == name with
    | some (_, test) => .ok ⟨test, name, param⟩
    | none =>
      if (others name).isSome then .ok ⟨.other, name, param⟩ else .error (.unknownRule name field)

def Rule.ofText (others : OtherTests) (field s : Text) : Except TagFault Rule :=
  if s = utf8 "omitempty" then .ok .omitEmpty
  else if s = utf8 "dive" then .ok .dive
  else do
    match ← (Text.split 0x7C s).mapM (NamedTest.ofText others field) with
    | [t] => .ok (.test t)
    | ts => .ok (.anyOf ts)

/-- The chain of rules that a tag writes down for a field; no text is no rule. -/
def chainOf (others : OtherTests) (field s : Text) : Except TagFault (List Rule) :=
  if s.isEmpty then .ok [] else (Text.split 0x2C s).mapM (Rule.ofText others field)

end ServiceKit.Check
