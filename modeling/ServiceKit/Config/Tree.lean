import ServiceKit.Config.KeyVariants
import ServiceKit.Environment
import ServiceKit.Number.Reading
import ServiceKit.Setting.Basic
import ServiceKit.Setting.Defect

/-!
Settings in levels, and the layers from which a program's settings are put together. A key is a
path through the levels with a point between its parts. What is set by variables comes before what a
file says, and a plain value hides everything that a lower layer has below it.
-/

namespace ServiceKit.Config

/-- Settings by name; a setting that is a map is a level of its own. -/
abbrev Tree := Keyed Setting

def pathOf (key : Text) : List Text := Text.split 0x2E key

namespace Tree

/-- The level below a setting; below a plain value there is an empty one. -/
def below : Option Setting → Tree
  | some (.map entries) => entries
  | _ => []

/-- The setting at the end of a path is set, and levels are made as they are needed. -/
def put (v : Setting) : List Text → Tree → Tree
  | [], t => t
  | [k], t => Keyed.put k v t
  | k :: path, t => Keyed.put k (.map (put v path (below (Keyed.find? k t)))) t

/-- The entries of a map of either kind. A key that is no text goes by the text that it has. -/
def entries? : Setting → Option Tree
  | .map entries => some entries
  | .table entries => some (Keyed.ofList (entries.map fun (k, v) => (k.plainText?.getD [], v)))
  | _ => none

/-- A setting unless it is null. -/
def given? : Option Setting → Option Setting
  | some .null => none
  | v => v

def at? : List Text → Tree → Option Setting
  | [], t => some (.map t)
  | [k], t => Keyed.find? k t
  | k :: path, t => ((Keyed.find? k t).bind entries?).bind (at? path)

/-- Is there a plain value on the way to the end of a path? -/
def hides : List Text → Tree → Bool
  | k :: path, t =>
    if path.isEmpty then false
    else match given? (Keyed.find? k t) with
      | none => false
      | some v =>
        match entries? v with
        | some entries => hides path entries
        | none => true
  | [], _ => false

/-- The setting that a key names directly below another one: an entry of a map, or an element of a
list by its number. A number below zero is not guarded against. -/
def child? (key : Text) : Setting → Except Defect (Option Setting)
  | .list items =>
    match Number.integerOf 10 key with
    | .ok i => if i < 0 then .error (.beforeFirst i) else .ok items[i.toNat]?
    | .error _ => .ok none
  | .map entries => .ok (Keyed.find? key entries)
  | _ => .ok none

def searchable? : Setting → Option Setting
  | .list items => some (.list items)
  | v => (entries? v).map .map

/-- The first result of a search that goes on as long as there is none. -/
def firstFound (find : Nat → Except Defect (Option Setting)) : List Nat → Except Defect (Option Setting)
  | [] => .ok none
  | i :: rest =>
    match find i with
    | .ok none => firstFound find rest
    | found => found

/-- The setting at the end of a path below another setting. Keys of files may themselves hold
points, so several parts of the path may be one key; more parts are tried before fewer. -/
def search : Nat → Setting → List Text → Except Defect (Option Setting)
  | 0, _, _ => .ok none
  | fuel + 1, v, path =>
    firstFound (fun i => do
      let next ← child? (Text.lower (Text.join [0x2E] (path.take (i + 1)))) v
      match path.drop (i + 1), next.bind searchable? with
      | [], _ => return given? next
      | _ :: _, none => return none
      | rest, some below => search fuel below rest) (List.range path.length).reverse

def addKey (keys : List Text) (key : Text) : List Text :=
  if keys.contains key then keys else keys ++ [key]

mutual

/-- The keys of all plain values at and below a setting, added to those that are known. Below a key
that is known already nothing is looked for. -/
def settingKeys (known : List Text) (key : Text) : Setting → List Text
  | .map entries =>
    if !key.isEmpty && known.contains key then known
    else levelKeys known (if key.isEmpty then [] else key ++ [0x2E]) entries
  | _ => addKey known key.lower

/-- The keys of a level whose keys all start alike. -/
def levelKeys (known : List Text) (lead : Text) : List (Text × Setting) → List Text
  | [] => known
  | (k, v) :: rest => levelKeys (settingKeys known (lead ++ k) v) lead rest

end

end Tree

structure Layers where
  /-- What is set one by one. -/
  overrides : Tree := []
  /-- What a file says. -/
  file : Tree := []

namespace Layers

def set (l : Layers) (key : Text) (v : Setting) : Layers :=
  { l with overrides := Tree.put v (pathOf key.lower) l.overrides }

def get? (l : Layers) (key : Text) : Except Defect (Option Setting) :=
  let path := pathOf key.lower
  match Tree.given? (Tree.at? path l.overrides) with
  | some v => .ok (some v)
  | none =>
    if Tree.hides path l.overrides then .ok none else Tree.search path.length (.map l.file) path

/-- The keys of all plain values, the overrides first and each level in the order of its keys. The keys
form a set, and the order in which they are merged only matters if one leads through another. -/
def keys (l : Layers) : List Text :=
  Tree.levelKeys (Tree.levelKeys [] [] l.overrides) [] l.file

def mergeKeys (l : Layers) : List Text → Tree → Except Defect Tree
  | [], t => .ok t
  | key :: keys, t =>
    match l.get? key with
    | .error d => .error d
    | .ok none => mergeKeys l keys t
    | .ok (some v) => mergeKeys l keys (Tree.put v (pathOf key) t)

def merged (l : Layers) : Except Defect Tree := l.mergeKeys l.keys []

/-- The part of a variable's name that counts. With a leading word, only names count that go on
after the word and an underscore. -/
def boundName? (lead name : Text) : Option Text :=
  if lead.isEmpty then some name
  else match Text.dropLead? (lead ++ [0x5F]) name with
    | some [] => none
    | rest => rest

/-- One variable sets every key that its name may stand for. -/
def bindVariable (lead : Text) (l : Layers) (e : Text × Text) : Layers :=
  match boundName? lead e.1 with
  | some name => (keyVariants name).foldl (fun l key => l.set key (.string e.2)) l
  | none => l

/-- Variables are bound in their order. -/
def bind (lead : Text) (env : Environment) (l : Layers) : Layers :=
  env.foldl (bindVariable lead) l

end Layers

end ServiceKit.Config
