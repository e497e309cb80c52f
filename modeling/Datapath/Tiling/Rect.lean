/-
Rectangles of grid cells.

* `Rect`: an axis-aligned rectangle; `area`, `overlaps`, `covers`. Its far corner
  is counted in 32 bits (`right`, `top`), and a rectangle that reaches further is
  taken for one that ends where the count begins again.
* `totalArea`: the area of some rectangles together. Of rectangles apart from each
  other in a grid it is at most that of the grid, which 64 bits are enough for.
* `Grid`: the grid of partial products of two operands; `holds` says that a
  rectangle lies in it.
-/
import Datapath.Bits

namespace Datapath.Tiling

/-- A rectangle of cells. Its columns are bits of the X operand and its rows
bits of the Y operand; the cell `(x, y)` weighs `2 ^ (x + y)`. -/
structure Rect where
  x : Nat
  y : Nat
  width : Nat
  height : Nat
  deriving DecidableEq, Repr, Inhabited

namespace Rect

/-- The number of cells. -/
def area (r : Rect) : Nat := r.width * r.height

/-- The first column behind the rectangle. -/
def right (r : Rect) : Nat := wrap32 (r.x + r.width)

/-- The first row above the rectangle. -/
def top (r : Rect) : Nat := wrap32 (r.y + r.height)

/-- The interiors of the two rectangles meet on both axes. -/
def overlaps (r s : Rect) : Bool :=
  r.x < s.right && s.x < r.right && r.y < s.top && s.y < r.top

/-- The cell `(x, y)` lies in the rectangle. -/
def covers (r : Rect) (x y : Nat) : Bool :=
  r.x ≤ x && x < r.right && r.y ≤ y && y < r.top

/-- The rectangle as it is shown in messages. -/
def shown (r : Rect) : String :=
  "Rect \x7b x: " ++ toString r.x ++ ", y: " ++ toString r.y ++ ", width: " ++ toString r.width ++
    ", height: " ++ toString r.height ++ " \x7d"

end Rect

/-- The number of cells of some rectangles, each counted for itself. -/
def totalArea (rects : List Rect) : Nat := rects.foldr (fun r n => r.area + n) 0

/-- The grid of a product: one column for each bit of X, one row for each bit
of Y. -/
structure Grid where
  width : Nat
  height : Nat
  deriving DecidableEq, Repr, Inhabited

namespace Grid

/-- The number of cells. -/
def area (g : Grid) : Nat := g.width * g.height

/-- The rectangle lies in the grid. -/
def holds (g : Grid) (r : Rect) : Bool := r.right ≤ g.width && r.top ≤ g.height

end Grid

end Datapath.Tiling
