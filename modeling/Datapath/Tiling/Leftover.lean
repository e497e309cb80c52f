/-
The cells that no block covers, as rectangles.

* `runs`: the maximal runs of free cells of one column.
* `Growing`, `sweep`: rectangles that grow column by column for as long
  as a column has the run that continues them.
* `leftover`: the rectangles that cover what the blocks leave free, ordered
  by their lower left corners.
-/
import Datapath.Tiling.Rect

namespace Datapath.Tiling

/-- A run of cells in a column: its lowest cell and its height. -/
structure Run where
  y : Nat
  height : Nat
  deriving DecidableEq, Repr, Inhabited

/-- A run that ends below `y`, if it has any cells. -/
def closeRun (y height : Nat) : List Run := if height = 0 then [] else [⟨y - height, height⟩]

/-- The runs of free cells among the `count` cells from `y` on, below which
`height` free cells lie. -/
def runsFrom (free : Nat → Bool) : (y count height : Nat) → List Run
  | y, 0, height => closeRun y height
  | y, count + 1, height =>
    if free y then runsFrom free (y + 1) count (height + 1)
    else closeRun y height ++ runsFrom free (y + 1) count 0

/-- The maximal runs of free cells of a column, from low to high. -/
def runs (free : Nat → Bool) (height : Nat) : List Run := runsFrom free 0 height 0

/-- A rectangle that grows from column to column. -/
structure Growing where
  run : Run
  /-- The column in which it began. -/
  start : Nat
  deriving DecidableEq, Repr, Inhabited

/-- The rectangle of the columns before `x`. -/
def Growing.upTo (g : Growing) (x : Nat) : Rect := ⟨g.start, g.run.y, x - g.start, g.run.height⟩

/-- The rectangles that grow on through column `x`: a run continues the
rectangle of the same run, or begins one. -/
def continueWith (x : Nat) (growing : List Growing) (column : List Run) : List Growing :=
  column.map fun run =>
    { run, start := ((growing.find? (·.run == run)).map (·.start)).getD x }

/-- The rectangles that end before column `x`. -/
def endBefore (x : Nat) (growing : List Growing) (column : List Run) : List Rect :=
  (growing.filter fun g => !column.contains g.run).map (·.upTo x)

/-- The rectangles that the sweep from column `x` through `count` more
columns completes. -/
def sweep (columns : Nat → List Run) : (x count : Nat) → List Growing → List Rect
  | x, 0, growing => growing.map (·.upTo x)
  | x, count + 1, growing =>
    endBefore x growing (columns x) ++
      sweep columns (x + 1) count (continueWith x growing (columns x))

/-- A cell lies in no block. -/
def uncovered (blocks : List Rect) (x y : Nat) : Bool := !blocks.any (·.covers x y)

/-- Rectangles order by their corners, by column first. -/
def cornerLe (r s : Rect) : Bool := r.x < s.x || (r.x == s.x && r.y ≤ s.y)

/-- The rectangles that cover what the blocks leave free. -/
def leftover (grid : Grid) (blocks : List Rect) : List Rect :=
  let column (x : Nat) : List Run :=
    let near := blocks.filter fun b => b.x ≤ x && x < b.right
    runs (uncovered near x) grid.height
  (sweep column 0 grid.width []).mergeSort cornerLe

end Datapath.Tiling
