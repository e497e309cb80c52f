/-
Wide adders.

* `LongAdder.build`: an adder `R = X0 + X1 + Cin` as a carry-select addition.
* `LongAdder.emulate`: the sum; `LongAdder.evaluate`: what the chunks make of
  it.
-/
import Datapath.Adder.CarrySelect
import Datapath.Adder.Simulate

namespace Datapath

/-- An adder `R = X0 + X1 + Cin`. -/
structure LongAdder where
  width : Nat
  plan : ChunkPlan
  /-- The cycles between inputs and output. -/
  latency : Nat
  deriving DecidableEq, Repr, Inhabited

namespace LongAdder

/-- The name of the adder of this width. -/
def nameOf (width : Nat) : String := s!"LongIntAdder_{width}"

/-- The name of the component. -/
def name (a : LongAdder) : String := nameOf a.width

/-- The steps that build an adder, and the plan of its addition. -/
def steps (t : Target) (width : Nat) : Build ChunkPlan := do
  let x0 ← Build.addInput "X0" width
  let x1 ← Build.addInput "X1" width
  let cin ← Build.addInput "Cin" 1
  let sum ← carrySelect t x0 x1 (some cin) width
  let _ ← Build.addOutput "R" width sum.result
  return sum.plan

/-- An adder of `width` bits. -/
def build (t : Target) (width : Nat) : Except BuildError (LongAdder × BuiltOperator) :=
  if width = 0 then .error (.configuration .emptyAdder)
  else do
    let (plan, built) ← (Builder.forTarget (nameOf width) t).construct (steps t width)
    return ({ width, plan, latency := built.component.latency }, built)

/-- The sum of the low bits of two words and a carry. -/
def emulate (a : LongAdder) (x y : Nat) (cin : Bool) : Nat :=
  truncateTo a.width (truncateTo a.width x + truncateTo a.width y + cin.toNat)

/-- The sum as the hardware computes it. -/
def evaluate (a : LongAdder) (x y : Nat) (cin : Bool) : Except BuildError Nat :=
  a.plan.simulate (truncateTo a.width x) (truncateTo a.width y) cin

end LongAdder

end Datapath
