import ServiceKit.Text.Keyed
import ServiceKit.Text.Route

/-!
Files as a program finds them, and a tree of files that is given as a list.
-/

namespace ServiceKit.Config

inductive Entry where
  | file (content : Text)
  | directory
  /-- A file that cannot be opened. -/
  | closed (why : Text)
deriving DecidableEq, Repr

/-- What stands at each path, or why there is nothing. -/
abbrev Files := Text → Except Text Entry

namespace Files

def exist (files : Files) (path : Text) : Bool :=
  match files path with
  | .ok _ => true
  | .error _ => false

def content (files : Files) (path : Text) : Except Text Text :=
  match files path with
  | .ok (.file content) => .ok content
  | .ok .directory => .error (utf8 "read " ++ path ++ utf8 ": is a directory")
  | .ok (.closed why) => .error (utf8 "open " ++ path ++ utf8 ": " ++ why)
  | .error why => .error (utf8 "open " ++ path ++ utf8 ": " ++ why)

/-! ### Trees of files -/

/-- What stands at a place of a tree of files. Directories are there if something is in them. -/
def entryAt? (tree : List (Route × Entry)) (p : Route) : Option Entry :=
  match tree.find? fun e => e.1 == p with
  | some (_, entry) => some entry
  | none =>
    if p.down.isEmpty || tree.any fun e => e.1.isInside p then some .directory else none

/-- What a path leads to, part after part: every place on the way is a directory. -/
def walk (tree : List (Route × Entry)) (p : Route) : List Text → Except Text Entry
  | [] =>
    match entryAt? tree p with
    | some entry => .ok entry
    | none => .error (utf8 "no such file or directory")
  | part :: parts =>
    match entryAt? tree p with
    | some .directory => walk tree (p.step part) parts
    | some _ => .error (utf8 "not a directory")
    | none => .error (utf8 "no such file or directory")

/-- The files of a list of paths that start at the working directory. Nothing is known of paths that
start elsewhere. -/
def ofList (entries : List (Text × Entry)) : Files := fun path =>
  if path.contains 0 then .error (utf8 "invalid argument")
  else if path.isEmpty then .error (utf8 "no such file or directory")
  else if path.head? = some 0x2F then
    if path.all (· == 0x2F) then .ok .directory else .error (utf8 "no such file or directory")
  else walk (entries.map fun (path, entry) => (.ofText path, entry)) {} (Text.split 0x2F path)

end Files

end ServiceKit.Config
