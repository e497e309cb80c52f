/-
Tilings in documents.

* `Rect.codec`, `Grid.codec`, `Placement.codec`: the parts of a tiling.
* `Configuration.codec`: a complete tiling.
* `Strategy.codec`: how a tiling is looked for.
-/
import Datapath.Document.Codec
import Datapath.Tiling.Search

namespace Datapath.Tiling

open Document

/-- Rectangles. -/
def Rect.codec : Codec Rect := record <| Rect.mk
  <$> field "x" (natural 32) (·.x)
  <*> field "y" (natural 32) (·.y)
  <*> field "width" (natural 32) (·.width)
  <*> field "height" (natural 32) (·.height)

/-- Grids. -/
def Grid.codec : Codec Grid := record <| Grid.mk
  <$> field "width" (natural 32) (·.width)
  <*> field "height" (natural 32) (·.height)

/-- Blocks of a tiling. -/
def Placement.codec : Codec Placement := record <| Placement.mk
  <$> field "rect" Rect.codec (·.rect)
  <*> field "rotated" boolean (·.rotated)
  <*> field "prev" (optional (natural 64)) (·.prev)
  <*> field "next" (optional (natural 64)) (·.next)

/-- Complete tilings. -/
def Configuration.codec : Codec Configuration := record <| Configuration.mk
  <$> field "grid" Grid.codec (·.grid)
  <*> field "placements" (arrayOf Placement.codec) (·.placements)
  <*> field "leftover" (arrayOf Rect.codec) (·.leftover)
  <*> field "logic_cells" (natural 64) (·.logicCells)
  <*> field "cost" float (·.cost)

/-- Ways to look for a tiling. -/
def Strategy.codec : Codec Strategy := choice [
  .word "Backtracking" .exhaustive,
  .holding "Annealing" (namedRecord (field "seed" seed id)) .annealing
    (fun | .annealing seed => some seed
         | _ => none)]

end Datapath.Tiling
