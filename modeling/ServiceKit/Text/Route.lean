import ServiceKit.Text.Basic

/-!
Ways through a tree of files: where a path leads, and how one directory is reached from another.
-/

namespace ServiceKit

/-- A place seen from a directory: so many levels up, and then down by names. -/
structure Route where
  up : Nat := 0
  down : List Text := []
deriving DecidableEq, Repr

namespace Route

/-- The place that one more part of a path leads to. -/
def step (r : Route) (part : Text) : Route :=
  if part.isEmpty || part = utf8 "." then r
  else if part = utf8 ".." then
    if r.down.isEmpty then { r with up := r.up + 1 } else { r with down := r.down.dropLast }
  else { r with down := r.down ++ [part] }

def ofText (path : Text) : Route := (Text.split 0x2F path).foldl step {}

def isInside (r s : Route) : Bool := r.up == s.up && s.down.isPrefixOf r.down

/-- The way between two directories, both known by the names that lead to them from the root. -/
def between : List Text → List Text → Route
  | a :: as, b :: bs => if a = b then between as bs else ⟨as.length + 1, b :: bs⟩
  | as, bs => ⟨as.length, bs⟩

def text (r : Route) : Text :=
  if r.up = 0 && r.down.isEmpty then utf8 "."
  else Text.join [0x2F] (List.replicate r.up (utf8 "..") ++ r.down)

end Route

/-- A path from the root as it is seen from a directory. Nothing leads up from the root, and another
path stays as it is. -/
def Text.seenFrom (directory : List Text) (path : Text) : Text :=
  if path.head? = some 0x2F then (Route.between directory (Route.ofText path).down).text else path

end ServiceKit
