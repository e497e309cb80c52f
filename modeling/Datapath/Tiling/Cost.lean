/-
The cost of a tiling.

* `Cost.weights`: what a block and a cell of logic cost. A preference of one
  is for blocks, a preference of zero for logic.
* `Cost.of`: the cost of some blocks and some cells.
-/

namespace Datapath.Tiling

/-- What a block and a cell of logic cost. -/
structure Cost where
  block : Float
  cell : Float

namespace Cost

/-- A preference between zero and one. What is no number stays none. -/
def clampRatio (ratio : Float) : Float :=
  let ratio := if ratio < 0.0 then 0.0 else ratio
  if ratio > 1.0 then 1.0 else ratio

/-- The costs for blocks of `blockArea` cells. -/
def weights (ratio : Float) (blockArea : Nat) : Cost :=
  let ratio := clampRatio ratio
  { block := 2.0 - ratio, cell := (1.0 + ratio) / Float.ofNat (max blockArea 1) }

/-- The cost of some blocks and some cells of logic. -/
def of (c : Cost) (blocks cells : Nat) : Float :=
  Float.ofNat blocks * c.block + Float.ofNat cells * c.cell

end Cost

end Datapath.Tiling
