/-
Devices described by a few numbers.

* `AffineDelays`: the numbers. Wires and adders have a fixed delay and one
  in proportion to fanout or width; chunks have one length at the start of a
  period and another later.
* `AffineDelays.model`: the device that they describe.
-/
import Datapath.Target.Basic

namespace Datapath

/-- The numbers that describe a device. -/
structure AffineDelays where
  lutInputs : Nat
  lut : Delay
  wire : Delay
  wirePerLoad : Delay
  adder : Delay
  adderPerBit : Delay
  register : Delay
  /-- The chunk length once some of the period is spent. -/
  lateChunk : Nat
  /-- The chunk length at the start of a period. -/
  firstChunk : Nat
  hasBlocks : Bool
  signedBlock : Nat × Nat
  unsignedBlock : Nat × Nat
  block : Delay
  memoryBits : Nat

/-- A device of middling speed. -/
def AffineDelays.standard : AffineDelays where
  lutInputs := 6
  lut := 0.5e-9
  wire := 0.3e-9
  wirePerLoad := 0.0
  adder := 0.5e-9
  adderPerBit := 0.1e-9
  register := 0.2e-9
  lateChunk := 2
  firstChunk := 8
  hasBlocks := true
  signedBlock := (18, 18)
  unsignedBlock := (18, 18)
  block := 2.0e-9
  memoryBits := 4096

/-- The device described by `d`. Nothing is checked or bounded. -/
def AffineDelays.model (d : AffineDelays) (options : TargetOptions) : Target where
  family := "custom"
  options
  lutInputs := d.lutInputs
  lutDelay := d.lut
  wireDelay fanout := d.wire + d.wirePerLoad.times fanout
  adderDelay size := d.adder + d.adderPerBit.times size
  registerDelay := d.register
  chunkAfter _ slack := if slack > 0.0 then d.lateChunk else d.firstChunk
  hasBlocks := d.hasBlocks
  blockWidths signed := if signed then d.signedBlock else d.unsignedBlock
  blockDelay := d.block
  memoryBits := d.memoryBits

end Datapath
