/-
Hard multiplier blocks and tables inside an operator.

* `placeBlock`: a block on two signals.
* `placeTable`: a table on two signals.
* `placePostAdder`: the adder at the end of a block, which adds to the sum of
  the block before it.
-/
import Datapath.Product.Table

namespace Datapath

/-- The name of the block for operands of these widths. -/
def blockName (wx wy : Nat) : String := s!"DSPBlock_{wx}x{wy}"

/-- The block for operands of these widths. -/
def blockComponent (wx wy : Nat) : Component :=
  .primitive (blockName wx wy) [("X", wx), ("Y", wy)] [("R", wx + wy)]

/-- The name of the adder of this width at the end of a block. -/
def postAdderName (width : Nat) : String := s!"DSPPostAdder_{width}"

/-- The adder of this width at the end of a block. -/
def postAdderComponent (width : Nat) : Component :=
  .primitive (postAdderName width) [("PCIN", width), ("P", width)] [("R", width)]

/-- The product of two signals by a block, from the current point in time
on. -/
def placeBlock (t : Target) (x y : SignalId) (label : String) : Build SignalId := do
  let wx := (← Build.schedule (Schedule.signal x)).width
  let wy := (← Build.schedule (Schedule.signal y)).width
  let component := blockName wx wy
  Build.addSubcomponent (blockComponent wx wy)
  let xUse ← Build.read x
  let yUse ← Build.read y
  let _ ← Build.advance t.blockDelay component
  let product ← Build.declare s!"{label}_R" (wx + wy)
  let _ ← Build.instantiate component label [.signal "X" xUse, .signal "Y" yUse]
  return product

/-- The entry of a table for two signals, from the current point in time
on. -/
def placeTable (t : Target) (x y : SignalId) (table : ProductTable) (label : String) :
    Build SignalId := do
  let _ ← Build.read x
  let _ ← Build.read y
  let xy ← Build.declare s!"{label}_XY" table.inputWidth
  Build.addSubcomponent (← Build.ofExcept (table.component t))
  let use ← Build.read xy
  let _ ← Build.advance (table.delay t 1) ProductTable.elementName
  let out ← Build.declare s!"{label}_RR" table.wOut
  let _ ← Build.instantiate table.name s!"{label}_multTable" [.signal "X" use]
  return out

/-- The sum of two signals by the adder of a block, which is defined
already. -/
def placePostAdder (t : Target) (sum product : SignalId) (width : Nat) (label : String) :
    Build SignalId := do
  let sumUse ← Build.read sum
  let productUse ← Build.read product
  let _ ← Build.advance t.blockDelay (postAdderName width)
  let next ← Build.declare label width
  let _ ← Build.instantiate (postAdderName width) label
    [.signal "PCIN" sumUse, .signal "P" productUse]
  return next

end Datapath
