/-
Models of target devices.

* `TargetOptions`: the clock and what the designer allows.
* `Target`: the delays and resources of a device family under given options.
* `Target.period`, `Target.hasHardMultipliers`, `Target.worthBlock`: what
  follows from a model.
* `fitCarryChain`: the longest stretch of a carry chain that a time budget
  pays for.
-/
import Datapath.Delay
import Datapath.Error

namespace Datapath

/-- The clock and what the designer allows. -/
structure TargetOptions where
  frequency : Frequency
  /-- Registers may be inserted. -/
  pipelined : Bool
  /-- Hard multiplier blocks may be used. -/
  useHardMultipliers : Bool

/-- Registers and hard multipliers at 400 MHz. -/
def TargetOptions.standard : TargetOptions := ⟨Frequency.ofMHz 400.0, true, true⟩

/-- The delays and resources of a device family under given options. -/
structure Target where
  family : String
  options : TargetOptions
  lutInputs : Nat
  lutDelay : Delay
  /-- The delay of a local wire with this many loads. -/
  wireDelay : Nat → Delay
  /-- The delay of a ripple-carry adder of this width. -/
  adderDelay : Nat → Delay
  /-- What a register costs: clock to output, and setup. -/
  registerDelay : Delay
  /-- The longest chunk of an addition of this width that fits in a period
  of which some seconds are spent already. -/
  chunkAfter : Nat → Float → Nat
  /-- The device has hard multiplier blocks. -/
  hasBlocks : Bool
  /-- The operand widths of a block, for signed or unsigned operands. -/
  blockWidths : Bool → Nat × Nat
  blockDelay : Delay
  /-- The size of a memory block in bits. -/
  memoryBits : Nat

namespace Target

/-- The target clock. -/
def frequency (t : Target) : Frequency := t.options.frequency

/-- The clock period in seconds. -/
def period (t : Target) : Float := t.frequency.period

/-- Registers may be inserted. -/
def pipelined (t : Target) : Bool := t.options.pipelined

/-- Blocks exist and may be used. -/
def hasHardMultipliers (t : Target) : Bool := t.hasBlocks && t.options.useHardMultipliers

/-- The longest chunk of an addition that fits in a whole period. -/
def chunk (t : Target) (width : Nat) : Nat := t.chunkAfter width 0.0

/-- The part of a block that a product has to fill before a block is
preferred to logic. -/
def worthyFraction : Float := 0.35

/-- A product of `wx` by `wy` bits fills enough of a block. -/
def worthBlock (t : Target) (wx wy : Nat) : Bool :=
  t.hasHardMultipliers &&
    let (dx, dy) := t.blockWidths false
    Float.ofNat wx * Float.ofNat wy ≥ worthyFraction * Float.ofNat dx * Float.ofNat dy

end Target

/-- The number of carry steps after `done` that are taken until `time` is
spent or `width` steps are passed; the step that spends it counts too. -/
def carrySteps (width : Nat) (step : Nat → Float) (done : Nat) (time : Float) : Nat :=
  if time > 0.0 ∧ done ≤ width then carrySteps width step (done + 1) (time - step (done + 1))
  else done
termination_by width + 1 - done

/-- The longest chunk of at most `width` bits whose carry steps `budget`
seconds pay for, but at least one bit. -/
def fitCarryChain (width : Nat) (budget : Float) (step : Nat → Float) : Nat :=
  max 1 (min (carrySteps width step 0 budget - 1) (max width 1))

end Datapath
