import ServiceKit.Text.Basic

/-!
Maps from texts to values as entry lists. `put` keeps the entries in strictly increasing order of
their keys, so a map built by `put` alone is listed in the byte order of the keys.
-/

namespace ServiceKit

/-- Entries of a map, one a key. -/
abbrev Keyed (α : Type) := List (Text × α)

namespace Keyed

variable {α β : Type}

/-- The value of a key is set; an entry that is already there is replaced in place. -/
def put (k : Text) (v : α) : Keyed α → Keyed α
  | [] => [(k, v)]
  | (k', v') :: rest =>
    if k = k' then (k, v) :: rest
    else if Text.lt k k' then (k, v) :: (k', v') :: rest
    else (k', v') :: put k v rest

def find? (k : Text) : Keyed α → Option α
  | [] => none
  | (k', v) :: rest => if k = k' then some v else find? k rest

def erase (k : Text) : Keyed α → Keyed α
  | [] => []
  | (k', v) :: rest => if k = k' then erase k rest else (k', v) :: erase k rest

def keys (m : Keyed α) : List Text := m.map Prod.fst

/-- All entries of a list are set in their order, so the last one of a key counts. -/
def putAll (m : Keyed α) (entries : List (Text × α)) : Keyed α :=
  entries.foldl (fun acc e => put e.1 e.2 acc) m

/-- The map of a list of entries, the last one of a key counting. -/
def ofList (entries : List (Text × α)) : Keyed α := putAll [] entries

end Keyed

/-! ### Going through a map -/

/-- The order in which a program happens to go through its maps: does one key come before another?
Maps have none of their own, so nothing is known of it. -/
abbrev MapOrder := Text → Text → Bool

namespace MapOrder

variable {α : Type}

def insert (before : MapOrder) (e : Text × α) : List (Text × α) → List (Text × α)
  | [] => [e]
  | f :: rest => if before f.1 e.1 then f :: insert before e rest else e :: f :: rest

/-- The entries of a map in such an order. -/
def arrange (before : MapOrder) (entries : List (Text × α)) : List (Text × α) :=
  entries.foldr (insert before) []

end MapOrder

end ServiceKit
