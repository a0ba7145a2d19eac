import ServiceKit.Fault.Basic

/-!
The version of a program, from what is stamped into it and from what is known of its build.
-/

namespace ServiceKit

/-- What a release stamps into the program. -/
structure Stamp where
  version : Text := utf8 "dev"
  commit : Text := []
deriving DecidableEq, Repr

structure Build where
  /-- The version of the tools. -/
  toolchain : Text
  settings : List (Text × Text)
deriving DecidableEq, Repr

structure Version where
  version : Text
  commit : Text
  toolchain : Text := []
  dirty : Bool := false
deriving DecidableEq, Repr

namespace Version

/-- How much of a commit is shown. -/
def commitLength : Nat := 7

/-- What one setting of a build adds: the first commit that is known stays, and the last word on
changes counts. -/
def addSetting (v : Version) (s : Text × Text) : Version :=
  if s.1 = utf8 "vcs.revision" then
    if v.commit.isEmpty then { v with commit := s.2 } else v
  else if s.1 = utf8 "vcs.modified" then { v with dirty := s.2 == utf8 "true" }
  else v

/-- The version of a program. The commit is cut only if the build is known. -/
def ofBuild (stamp : Stamp) : Option Build → Version
  | none => { version := stamp.version, commit := stamp.commit }
  | some b =>
    let v := b.settings.foldl addSetting
      { version := stamp.version, commit := stamp.commit, toolchain := b.toolchain }
    { v with commit := v.commit.take commitLength }

def short (v : Version) : Text :=
  v.version ++ (if v.commit.isEmpty then [] else 0x2D :: v.commit)
    ++ (if v.dirty then utf8 "-dirty" else [])

/-- The version as a JSON object; empty members are left out. -/
def toJson (v : Version) : Detail :=
  let optional (key : String) (s : Text) : List (Text × Detail) :=
    if s.isEmpty then [] else [(utf8 key, .string s)]
  .object ((utf8 "version", .string v.version) :: optional "commit" v.commit
    ++ optional "go_version" v.toolchain ++ if v.dirty then [(utf8 "dirty", .bool true)] else [])

def document (v : Version) : Text := v.toJson.write .markup Number.Numeral.jsonText

end Version

end ServiceKit
