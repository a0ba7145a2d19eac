import ServiceKit.Number.Reading
import ServiceKit.Text.Keyed
import ServiceKit.Text.Quoted

/-!
Flags among the arguments of a command, and the table that explains them.
-/

namespace ServiceKit.Cli

/-- What is written for a flag, and what holds without it. -/
inductive FlagKind where
  /-- A flag that is on or off; its name alone turns it on. -/
  | toggle (start : Bool)
  /-- A flag with a text. -/
  | text (start : Text)
deriving DecidableEq, Repr

structure Flag where
  name : Text
  kind : FlagKind
  help : Text
deriving DecidableEq, Repr

inductive FlagValue where
  | toggle (on : Bool)
  | text (s : Text)
deriving DecidableEq, Repr

inductive FlagFault where
  | badShape (arg : Text)
  | unknown (name : Text)
  /-- No flag has a name of one letter. -/
  | unknownLetter (letter : UInt8) (letters : Text)
  | noValue (name : Text)
  | badToggle (name word : Text)
deriving DecidableEq, Repr

namespace FlagFault

/-- The byte by which a letter is shown: the first one of the character with its number. -/
def letterByte (b : UInt8) : UInt8 := (String.utf8EncodeChar (Char.ofNat b.toNat)).headD b

def message : FlagFault → Text
  | badShape arg => utf8 "bad flag syntax: " ++ arg
  | unknown name => utf8 "unknown flag: --" ++ name
  | unknownLetter letter letters =>
    utf8 "unknown shorthand flag: " ++ Text.quotedByte (letterByte letter) ++ utf8 " in -" ++ letters
  | noValue name => utf8 "flag needs an argument: --" ++ name
  | badToggle name word =>
    utf8 "invalid argument " ++ word.quoted ++ utf8 " for " ++ Text.quoted (utf8 "--" ++ name)
      ++ utf8 " flag: strconv.ParseBool: parsing " ++ word.quoted ++ utf8 ": invalid syntax"

end FlagFault

/-- Why the reading of arguments ends early. -/
inductive FlagStop where
  | help
  | fault (f : FlagFault)
deriving DecidableEq, Repr

/-- Arguments that are read: what they say of flags, the last word on each, and the rest. -/
structure Parsed where
  values : Keyed FlagValue := []
  rest : List Text := []
deriving DecidableEq, Repr

namespace Parsed

def text? (p : Parsed) (name : String) : Option Text :=
  match Keyed.find? (utf8 name) p.values with
  | some (.text s) => some s
  | _ => none

def toggle? (p : Parsed) (name : String) : Option Bool :=
  match Keyed.find? (utf8 name) p.values with
  | some (.toggle b) => some b
  | _ => none

/-- One more argument that is no flag, in front. -/
def addRest (p : Parsed) (arg : Text) : Parsed := { p with rest := arg :: p.rest }

end Parsed

inductive Argument where
  /-- Not a flag. -/
  | plain
  /-- The end of the flags. -/
  | stop
  /-- A flag that is meant for a test runner and passed over. -/
  | skipped
  /-- A flag that is complete. -/
  | value (name : Text) (v : FlagValue)
  /-- A flag with a text, which is the next argument. -/
  | wants (name : Text)

def FlagKind.read (kind : FlagKind) (name word : Text) : Except FlagStop Argument :=
  match kind with
  | .text _ => .ok (.value name (.text word))
  | .toggle _ =>
    match Number.boolOf? word with
    | some b => .ok (.value name (.toggle b))
    | none => .error (.fault (.badToggle name word))

/-- What an argument after two dashes is. A word may follow an equals sign. -/
def longFlag (flags : List Flag) (body : Text) : Except FlagStop Argument :=
  let (name, word) := match Text.cut? 0x3D body with
    | some (name, word) => (name, some word)
    | none => (body, none)
  match flags.find? fun f => f.name == name with
  | none => .error (if name = utf8 "help" then .help else .fault (.unknown name))
  | some f =>
    match word, f.kind with
    | some word, kind => kind.read name word
    | none, .toggle _ => .ok (.value name (.toggle true))
    | none, .text _ => .ok (.wants name)

def Argument.ofText (flags : List Flag) (arg : Text) : Except FlagStop Argument :=
  match arg with
  | 0x2D :: 0x2D :: body =>
    match body with
    | [] => .ok .stop
    | b :: _ => if b = 0x2D || b = 0x3D then .error (.fault (.badShape arg)) else longFlag flags body
  | 0x2D :: letter :: letters =>
    if Text.startsWith (letter :: letters) (utf8 "test.") then .ok .skipped
    else if letter = 0x68 then .error .help
    else .error (.fault (.unknownLetter letter (letter :: letters)))
  | _ => .ok .plain

/-- The arguments of a command, from the left, with what is known of flags so far. Unless flags may
stand between other arguments, the first other argument ends them. -/
def readFrom (flags : List Flag) (interspersed : Bool) (values : Keyed FlagValue) :
    List Text → Except FlagStop Parsed
  | [] => .ok ⟨values, []⟩
  | [arg] => do
    match ← Argument.ofText flags arg with
    | .plain => .ok ⟨values, [arg]⟩
    | .stop => .ok ⟨values, []⟩
    | .skipped => .ok ⟨values, []⟩
    | .value name v => .ok ⟨Keyed.put name v values, []⟩
    | .wants name => .error (.fault (.noValue name))
  | arg :: next :: args => do
    match ← Argument.ofText flags arg with
    | .plain =>
      if interspersed then
        .ok ((← readFrom flags interspersed values (next :: args)).addRest arg)
      else .ok ⟨values, arg :: next :: args⟩
    | .stop => .ok ⟨values, next :: args⟩
    | .skipped => readFrom flags interspersed values (next :: args)
    | .value name v => readFrom flags interspersed (Keyed.put name v values) (next :: args)
    | .wants name => readFrom flags interspersed (Keyed.put name (.text next) values) args

def readFlags (flags : List Flag) (interspersed : Bool) (args : List Text) :
    Except FlagStop Parsed := readFrom flags interspersed [] args

/-! ### The table of flags -/

namespace Flag

/-- The first column: the name and, for a text, the word that stands for it. -/
def head (f : Flag) : Text :=
  utf8 "      --" ++ f.name ++ match f.kind with
    | .toggle _ => []
    | .text _ => utf8 " string"

/-- What holds without the flag, unless that is nothing. -/
def startText (f : Flag) : Text :=
  match f.kind with
  | .toggle true => utf8 " (default true)"
  | .toggle false => []
  | .text [] => []
  | .text s => utf8 " (default " ++ s.quoted ++ [0x29]

/-- One line of the table, its first column as wide as the widest one. -/
def line (width : Nat) (f : Flag) : Text :=
  f.head ++ List.replicate (width - f.head.length + 3) 0x20 ++ f.help ++ f.startText ++ [0x0A]

end Flag

/-- The table of the flags of a command, in the order of their names. -/
def flagTable (command : Text) (flags : List Flag) : Text :=
  let width := (flags.map fun f => f.head.length).foldl max 0
  utf8 "Usage of " ++ command ++ utf8 ":\n"
    ++ (flags.mergeSort fun f g => Text.le f.name g.name).flatMap (Flag.line width)

end ServiceKit.Cli
