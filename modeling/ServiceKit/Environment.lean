import ServiceKit.Text.Keyed

/-!
The variables that surround a program.
-/

namespace ServiceKit

/-- Variables with their values, in the order in which they were first set. -/
abbrev Environment := List (Text × Text)

namespace Environment

/-- A variable and its value as one text; the name ends at the first equals sign and is not
empty. -/
def entry? (s : Text) : Option (Text × Text) :=
  match Text.cut? 0x3D s with
  | some ([], _) => none
  | e => e

def entryText (e : Text × Text) : Text := e.1 ++ 0x3D :: e.2

def find? (name : Text) : Environment → Option Text
  | [] => none
  | (n, v) :: rest => if name = n then some v else find? name rest

def isSet (name : Text) (env : Environment) : Bool := (find? name env).isSome

/-- May a variable be set? A name is not empty and has no equals sign, and neither it nor a value
has a zero byte. -/
def isSettable (name value : Text) : Bool :=
  !name.isEmpty && !name.contains 0x3D && !name.contains 0 && !value.contains 0

/-- A variable is set. One that is there already keeps its place. -/
def set (name value : Text) : Environment → Environment
  | [] => [(name, value)]
  | (n, v) :: rest => if name = n then (name, value) :: rest else (n, v) :: set name value rest

def ofEntries (entries : List Text) : Environment :=
  (entries.filterMap entry?).foldl
    (fun env e => if isSettable e.1 e.2 then set e.1 e.2 env else env) []

/-- Variables are added that are not set yet. -/
def addMissing (env : Environment) (added : List (Text × Text)) : Environment :=
  env ++ added.filter fun e => isSettable e.1 e.2 && !isSet e.1 env

/-- Assignments are added, unless they are not to be had; then it is told why. -/
def addAssigned (env : Environment) :
    Except Text (List (Text × Text)) → Environment × Option Text
  | .ok added => (env.addMissing added, none)
  | .error why => (env, some why)

def wantsNoColor (env : Environment) : Bool :=
  match find? (utf8 "NO_COLOR") env with
  | some v => !v.isEmpty
  | none => false

end Environment

end ServiceKit
