/-
Blocks on a grid.

* `BlockShape`: the operand widths of a hard multiplier block.
* `Candidate`: a position that a block may take; `Candidate.enumerate` lists
  all positions inside a grid, in scan order.
* `Placement`: a block of a tiling, with its neighbours in a cascade.
-/
import Datapath.Tiling.Rect

namespace Datapath.Tiling

/-- The operand widths of a block. -/
structure BlockShape where
  width : Nat
  height : Nat
  deriving DecidableEq, Repr, Inhabited

namespace BlockShape

/-- The number of cells under a block. -/
def area (s : BlockShape) : Nat := s.width * s.height

/-- Exchanging the operands gives another shape. -/
def rotatable (s : BlockShape) : Bool := s.width != s.height

/-- The shape as it is, and with exchanged operands if that is another
one. -/
def orientations (s : BlockShape) : List (Nat × Nat × Bool) :=
  (s.width, s.height, false) :: if s.rotatable then [(s.height, s.width, true)] else []

end BlockShape

/-- A position that a block may take. -/
structure Candidate where
  rect : Rect
  /-- The operands of the block are exchanged. -/
  rotated : Bool
  deriving DecidableEq, Repr, Inhabited

namespace Candidate

/-- The orientations of a block that fit in the grid with their corner at
`(x, y)`. -/
def atCorner (grid : Grid) (shape : BlockShape) (x y : Nat) : List Candidate :=
  shape.orientations.filterMap fun (w, h, rotated) =>
    let rect : Rect := ⟨x, y, w, h⟩
    if 0 < w && 0 < h && grid.holds rect then some { rect, rotated } else none

/-- All positions of a block in the grid: column by column, in each from low
to high, and at each corner the block as it is before the rotated one. -/
def enumerate (grid : Grid) (shape : BlockShape) : List Candidate :=
  (List.range grid.width).flatMap fun x =>
    (List.range grid.height).flatMap fun y => atCorner grid shape x y

end Candidate

/-- A block of a tiling. -/
structure Placement where
  rect : Rect
  /-- The operands of the block are exchanged. -/
  rotated : Bool
  /-- The block below, whose sum this one extends. -/
  prev : Option Nat
  /-- The block above, which extends the sum of this one. -/
  next : Option Nat
  deriving DecidableEq, Repr, Inhabited

namespace Placement

/-- A block at a candidate position, without neighbours. -/
def ofCandidate (c : Candidate) : Placement :=
  { rect := c.rect, rotated := c.rotated, prev := none, next := none }

/-- The weight of the least significant bit of the block's product. -/
def weight (p : Placement) : Nat := p.rect.x + p.rect.y

end Placement

end Datapath.Tiling
