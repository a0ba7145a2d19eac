/-!
Lists that share storage. A list lies in the first places of a block and grows there as long as the block
has places, so that lists of several lengths may lie in one block. What outgrows its block is copied into a
new one.
-/

namespace ServiceKit

/-- The first places of a block. -/
structure Span where
  block : Nat := 0
  length : Nat := 0
deriving DecidableEq, Repr

/-- Blocks of places, at first a single one without any. -/
structure Storage (α : Type) where
  blocks : List (List α) := [[]]
  /-- How many places a new block has to spare, by the number of places that are needed. -/
  spare : Nat → Nat := fun n => n - 2

namespace Storage

variable {α : Type}

def cells (s : Storage α) (block : Nat) : List α := s.blocks[block]?.getD []

/-- The list that lies in a span. -/
def read (s : Storage α) (x : Span) : List α := (s.cells x.block).take x.length

/-- The span is a part of the storage. -/
def Holds (s : Storage α) (x : Span) : Prop :=
  x.block < s.blocks.length ∧ x.length ≤ (s.cells x.block).length

theorem cells_set {s : Storage α} {block : Nat} (h : block < s.blocks.length) (places : List α) :
    cells { s with blocks := s.blocks.set block places } block = places := by
  rw [cells, List.getElem?_set_self h]
  rfl

theorem cells_append (s : Storage α) (places : List α) :
    cells { s with blocks := s.blocks ++ [places] } s.blocks.length = places := by
  rw [cells, List.getElem?_concat_length]
  rfl

variable [Inhabited α]

/-- A value is put into the place after a span, and the span grows by it. If the block has no such place,
this is done in a copy. -/
def push (s : Storage α) (x : Span) (a : α) : Storage α × Span :=
  let cells := s.cells x.block
  if x.length < cells.length then
    ({ s with blocks := s.blocks.set x.block (cells.set x.length a) }, ⟨x.block, x.length + 1⟩)
  else
    let copy := cells.take x.length ++ a :: List.replicate (s.spare (x.length + 1)) default
    ({ s with blocks := s.blocks ++ [copy] }, ⟨s.blocks.length, x.length + 1⟩)

theorem push_of_lt {s : Storage α} {x : Span} (h : x.length < (s.cells x.block).length) (a : α) :
    s.push x a = ({ s with blocks := s.blocks.set x.block ((s.cells x.block).set x.length a) },
      ⟨x.block, x.length + 1⟩) := if_pos h

theorem push_of_le {s : Storage α} {x : Span} (h : (s.cells x.block).length ≤ x.length) (a : α) :
    s.push x a = ({ s with blocks := s.blocks ++ [(s.cells x.block).take x.length ++
      a :: List.replicate (s.spare (x.length + 1)) default] }, ⟨s.blocks.length, x.length + 1⟩) :=
  if_neg (Nat.not_lt.mpr h)

theorem Holds.push {s : Storage α} {x : Span} (h : s.Holds x) (a : α) :
    (s.push x a).1.Holds (s.push x a).2 := by
  rcases Nat.lt_or_ge x.length (s.cells x.block).length with hroom | hfull
  · rw [push_of_lt hroom]
    refine ⟨by simpa using h.1, ?_⟩
    rw [cells_set h.1, List.length_set]
    exact hroom
  · rw [push_of_le hfull]
    have hlength : ((s.cells x.block).take x.length).length = x.length := by
      rw [List.length_take, Nat.min_eq_left h.2]
    refine ⟨by simp, ?_⟩
    rw [cells_append, List.length_append, hlength, List.length_cons]
    exact Nat.add_le_add_left (Nat.le_add_left 1 _) x.length

end Storage

end ServiceKit
