/-
Complete tilings.

* `Configuration`: blocks, the rectangles left to logic, and the cost. Cells are
  counted in 64 bits, which is enough for those of a grid but maybe not for those
  of whole tables.
* `Configuration.ofCandidates`: the tiling with blocks at given positions.
* `Configuration.betterThan`: strictly cheaper, or as cheap with more area
  under blocks.
* `Configuration.validate`: the rectangles lie in the grid, do not overlap,
  and have the area of the grid.
-/
import Datapath.Bits
import Datapath.Error
import Datapath.Tiling.Cost
import Datapath.Tiling.Leftover
import Datapath.Tiling.Placement

namespace Datapath.Tiling

/-- Blocks on a grid together with what is left to logic. -/
structure Configuration where
  grid : Grid
  placements : Array Placement
  /-- The rectangles left to logic. -/
  leftover : Array Rect
  /-- The cells of logic, in whole tables for every rectangle. -/
  logicCells : Nat
  cost : Float
  deriving Inhabited

/-- The number of tables of `table` cells that cover a rectangle. A table has
at least one cell each way. -/
def tableCount (r : Rect) (table : Nat × Nat) : Nat :=
  ceilDiv r.width (max table.1 1) * ceilDiv r.height (max table.2 1)

/-- The cells of the tables that cover a rectangle. -/
def tableCells (r : Rect) (table : Nat × Nat) : Nat :=
  tableCount r table * max table.1 1 * max table.2 1

namespace Configuration

/-- The tiling with blocks at the given positions. -/
def ofCandidates (grid : Grid) (chosen : List Candidate) (cost : Cost) (table : Nat × Nat) :
    Configuration :=
  let left := Tiling.leftover grid (chosen.map (·.rect))
  let cells := wrap64 (left.foldr (fun r n => tableCells r table + n) 0)
  { grid
    placements := (chosen.map Placement.ofCandidate).toArray
    leftover := left.toArray
    logicCells := cells
    cost := cost.of chosen.length cells }

/-- The number of blocks. -/
def blockCount (c : Configuration) : Nat := c.placements.size

/-- The cells under blocks. -/
def coveredArea (c : Configuration) : Nat :=
  wrap64 (totalArea (c.placements.toList.map (·.rect)))

/-- Strictly cheaper, or as cheap with more area under blocks. -/
def betterThan (c best : Configuration) : Bool :=
  c.cost < best.cost || (c.cost == best.cost && c.coveredArea > best.coveredArea)

/-- All rectangles, blocks first. -/
def rects (c : Configuration) : List Rect :=
  c.placements.toList.map (·.rect) ++ c.leftover.toList

/-- Every rectangle lies in the grid and overlaps none of those after it. -/
def checkRects (grid : Grid) : List Rect → Except BuildError Unit
  | [] => .ok ()
  | r :: rest =>
    if !grid.holds r then .error (.invariant (.outsideGrid r))
    else
      match rest.find? r.overlaps with
      | some s => .error (.invariant (.overlapping r s))
      | none => checkRects grid rest

/-- The first defect of a tiling, if there is one. -/
def validate (c : Configuration) : Except BuildError Unit := do
  checkRects c.grid c.rects
  let area := totalArea c.rects
  if area = c.grid.area then .ok ()
  else .error (.invariant (.cellsMissed area c.grid.area))

end Configuration

end Datapath.Tiling
