import ServiceKit.Check.Collector
import ServiceKit.Check.Rule

/-!
Records checked against the rules in the tags of their fields. All fields but private ones are checked,
in the order of the fields and inner records in their place; of a field only the first rule that fails
counts.
-/

namespace ServiceKit.Check

/-- Is a number at the wanted side of a bound? -/
def Comparison.holds (c : Comparison) (n bound : Int) : Bool :=
  match c with
  | atLeast => bound ≤ n
  | atMost => n ≤ bound
  | exactly => n == bound
  | above => bound < n
  | below => n < bound

/-- Is a floating-point number at the wanted side of a bound? None is at any side of what is no
number. -/
def Comparison.holdsFloat (c : Comparison) (x bound : Number.Binary64) : Bool :=
  if x = .notANumber || bound = .notANumber then false
  else match c with
    | atLeast => bound.le x
    | atMost => x.le bound
    | exactly => x.le bound && bound.le x
    | above => !x.le bound
    | below => !bound.le x

def integerParam (param : Text) : Except TagFault Int :=
  match Number.integerOf 0 param with
  | .ok i => .ok i
  | .error why => .error (.badInteger param why)

def floatParam (param : Text) : Except TagFault Number.Binary64 :=
  match Number.floatOf param with
  | .ok x => .ok x
  | .error why => .error (.badFloat param why)

/-- The words of a list of choices: a word in single quotes may hold blanks, and the quotes
themselves are dropped. -/
def choices : Nat → Text → List Text
  | 0, _ => []
  | fuel + 1, s =>
    let isBlank (b : UInt8) : Bool := b == 0x20 || b == 0x09 || b == 0x0A || b == 0x0C || b == 0x0D
    match s.dropWhile isBlank with
    | [] => []
    | b :: rest =>
      match if b = 0x27 then Text.cut? 0x27 rest else none with
      | some (word, rest) => word :: choices fuel rest
      | none =>
        let word := (b :: rest).takeWhile (!isBlank ·)
        word.filter (· != 0x27) :: choices fuel ((b :: rest).dropWhile (!isBlank ·))

/-- Does a value pass a test? A text is measured in characters and a list in elements. -/
def NamedTest.passes (others : OtherTests) (t : NamedTest) (pointed : Bool) (v : Value) :
    Except TagFault Bool :=
  let param := t.param.getD []
  match t.test with
  | .required => .ok (v.isGiven pointed)
  | .size how =>
    match v with
    | .string s => do .ok (how.holds s.glyphCount (← integerParam param))
    | .list items => do .ok (how.holds (items.getD []).length (← integerParam param))
    | .int i => do .ok (how.holds i (← integerParam param))
    | .float x => do .ok (how.holdsFloat x (← floatParam param))
    | v => .error (.badType v.typeName)
  | .oneOf =>
    let words := choices (param.length + 1) param
    match v with
    | .string s => .ok (words.contains s)
    | .int i => .ok (words.contains (Number.integer i))
    | v => .error (.badType v.typeName)
  | .alphanumeric =>
    match v with
    | .string s => .ok (!s.isEmpty && s.all fun b => Text.isLetter b || Text.isDigit b)
    | _ => .ok false
  | .other =>
    match others t.name with
    | some test => test param pointed v
    | none => .ok false

/-- How the checking of a value against a chain ends. -/
inductive Outcome where
  /-- All rules are followed; what is inside the value is still to be checked. -/
  | passed
  /-- Nothing is asked of the value. -/
  | excused
  /-- The elements are still to be checked against the rest of the chain. -/
  | dives (rest : List Rule)
  /-- A rule of some name and parameter is not followed. -/
  | failed (name param : Text)

/-- The text by which a test is known that stands among others. -/
def NamedTest.text (t : NamedTest) : Text :=
  t.name ++ (match t.param with | some p => 0x3D :: p | none => [])

/-- Does one of several tests pass? They are tried in order, up to the first that does. -/
def anyPasses (others : OtherTests) (pointed : Bool) (v : Value) :
    List NamedTest → Except TagFault Bool
  | [] => .ok false
  | t :: ts => do if ← t.passes others pointed v then .ok true else anyPasses others pointed v ts

/-- A value checked against a chain, from its left end. -/
def runChain (others : OtherTests) (pointed : Bool) (v : Value) :
    List Rule → Except TagFault Outcome
  | [] => .ok .passed
  | .omitEmpty :: rest =>
    if v.isGiven pointed then runChain others pointed v rest else .ok .excused
  | .dive :: rest => .ok (.dives rest)
  | .test t :: rest => do
    if ← t.passes others pointed v then runChain others pointed v rest
    else .ok (.failed t.name (t.param.getD []))
  | .anyOf ts :: rest => do
    if ← anyPasses others pointed v ts then runChain others pointed v rest
    else .ok (.failed (Text.join [0x7C] (ts.map NamedTest.text))
      ((ts.getLast?.bind NamedTest.param).getD []))

def ruleMessage (name param : Text) : Text :=
  if name = utf8 "required" then utf8 "is required"
  else if name = utf8 "min" then utf8 "must be at least " ++ param ++ utf8 " characters"
  else if name = utf8 "max" then utf8 "must be at most " ++ param ++ utf8 " characters"
  else if name = utf8 "oneof" then utf8 "must be one of: " ++ param
  else utf8 "is invalid"

/-- The path by which a field is reported: what follows the first point of its full path, and its
own name if there is no point. -/
def reportedPath (full name : Text) : Text :=
  match Text.cut? 0x2E full with
  | some (_, rest) => rest
  | none => full.drop (full.length - name.length % 256)

def fieldError (space name rule param : Text) : FieldError :=
  ⟨reportedPath (space ++ name) name, ruleMessage rule param⟩

def elementName (name : Text) (i : Nat) : Text := name ++ 0x5B :: Number.decimal i ++ [0x5D]

/-- A missing value fails the first rule of its chain, unless it may be missing. Of several tests it
is the second that gives the name, and the first that gives the parameter. -/
def missing (space name : Text) : List Rule → List FieldError
  | [] => []
  | .omitEmpty :: _ => []
  | .dive :: _ => [fieldError space name (utf8 "dive") []]
  | .test t :: _ => [fieldError space name t.name (t.param.getD [])]
  | .anyOf ts :: _ =>
    [fieldError space name ((ts[1]?.map NamedTest.name).getD [])
      ((ts.head?.bind NamedTest.param).getD [])]

/-- The chain of a field, and nothing for a field that is not to be checked: the tag of a private
field is not even read. -/
def fieldChain (others : OtherTests) (f : Field) : Except TagFault (Option (List Rule)) :=
  let text := tagText "validate" f.tag
  if f.isPrivate || text = [0x2D] then .ok none else do .ok (some (← chainOf others f.name text))

mutual

/-- A value of some name in a name space, checked against a chain. -/
def checkValue (others : OtherTests) (space name : Text) (pointed : Bool) (chain : List Rule) :
    Value → Except TagFault (List FieldError)
  | .pointer given v =>
    if given then checkValue others space name true chain v else .ok (missing space name chain)
  | .list items => do
    match ← runChain others pointed (.list items) chain with
    | .passed | .excused => .ok []
    | .failed rule param => .ok [fieldError space name rule param]
    | .dives rest =>
      match items with
      | none => .ok []
      | some vs => checkElements others space name rest 0 vs
  | .record fields => do
    match ← runChain others pointed (.record fields) chain with
    | .excused => .ok []
    | .failed rule param => .ok [fieldError space name rule param]
    | .dives _ => .error .badDive
    | .passed =>
      let chains ← fields.mapM fun f => fieldChain others f.1
      checkFields others (space ++ name ++ [0x2E]) chains fields
  | .string s => checkLeaf others space name pointed chain (.string s)
  | .int i => checkLeaf others space name pointed chain (.int i)
  | .float x => checkLeaf others space name pointed chain (.float x)
  | .bool b => checkLeaf others space name pointed chain (.bool b)

def checkElements (others : OtherTests) (space name : Text) (chain : List Rule) (i : Nat) :
    List Value → Except TagFault (List FieldError)
  | [] => .ok []
  | v :: vs => do
    let found ← checkValue others space (elementName name i) false chain v
    let more ← checkElements others space name chain (i + 1) vs
    .ok (found ++ more)

def checkFields (others : OtherTests) (space : Text) :
    List (Option (List Rule)) → List (Field × Value) → Except TagFault (List FieldError)
  | some chain :: chains, (f, v) :: fields => do
    let found ← checkValue others space f.publicName false chain v
    let more ← checkFields others space chains fields
    .ok (found ++ more)
  | none :: chains, _ :: fields => checkFields others space chains fields
  | _, _ => .ok []

/-- A value without anything inside it. -/
def checkLeaf (others : OtherTests) (space name : Text) (pointed : Bool) (chain : List Rule)
    (v : Value) : Except TagFault (List FieldError) := do
  match ← runChain others pointed v chain with
  | .passed | .excused => .ok []
  | .failed rule param => .ok [fieldError space name rule param]
  | .dives _ => .error .badDive

end

/-- What may be handed over for checking: a record of a type that may have a name, or something of
another type, which is named unless there is nothing at all. -/
inductive Subject where
  | record (typeName : Text) (fields : List (Field × Value))
  | other (typeName : Option Text)

/-- The failures of a record of a type. Paths start with the name of the type, if it has one. -/
def checkRecord (others : OtherTests) (typeName : Text) (fields : List (Field × Value)) :
    Except TagFault (List FieldError) := do
  let chains ← fields.mapM fun f => fieldChain others f.1
  checkFields others (if typeName.isEmpty then [] else typeName ++ [0x2E]) chains fields

/-- The error of a subject, if there is one. Only records can be checked. -/
def validate (others : OtherTests) : Subject → Except TagFault (Option Failure)
  | .record typeName fields => do .ok (FieldError.failure? (← checkRecord others typeName fields))
  | .other typeName =>
    let shown := match typeName with | some t => utf8 "(nil " ++ t ++ utf8 ")" | none => utf8 "(nil)"
    .ok (some ((Fault.validation (utf8 "validation failed")).withCause
      (some (utf8 "validator: " ++ shown))))

end ServiceKit.Check
