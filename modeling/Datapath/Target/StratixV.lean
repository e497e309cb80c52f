/-
The Stratix V family: modules of two bits, ten of them to a block of logic.
Carries are slower at every half of such a block and slower still between
two blocks. A hard multiplier can be set up for 9, 18 or 27 bits.
-/
import Datapath.Target.Basic

namespace Datapath.StratixV

/-- One setting of the hard multiplier: its operand width and delay. -/
structure BlockMode where
  width : Nat
  delay : Float

/-- The settings, narrow ones first. -/
def modes : List BlockMode := [⟨9, 1.30e-9⟩, ⟨18, 1.75e-9⟩, ⟨27, 2.20e-9⟩]

def lutDelay : Float := 0.433e-9
def wireDelay : Float := 0.350e-9
def fastCarry : Float := 0.024e-9
def innerCarry : Float := 0.135e-9
def outerCarry : Float := 0.275e-9
def carryToSum : Float := 0.283e-9
def registerDelay : Float := 0.156e-9

/-- The delay of the carry into bit `bit` of a chain. -/
def carryStep (bit : Nat) : Float :=
  if bit % 20 = 0 then outerCarry else if bit % 10 = 0 then innerCarry else fastCarry

/-- The delay of an adder: a table, the carries from bit to bit, the sum. -/
def adderDelay (size : Nat) : Float :=
  let chain := Nat.fold (size - 1) (fun i _ total => total + carryStep (i + 1)) 0.0
  lutDelay + chain + carryToSum

/-- The widest setting that meets the clock, or the narrowest. -/
def modeAt (period : Float) : BlockMode :=
  (modes.reverse.find? fun m => m.delay ≤ period).getD ⟨9, 1.30e-9⟩

/-- The model under the given options. -/
def model (options : TargetOptions) : Target :=
  let period := options.frequency.period
  let mode := modeAt period
  { family := "stratix_v"
    options
    lutInputs := 6
    lutDelay
    wireDelay := fun _ => wireDelay
    adderDelay := fun size => adderDelay size
    registerDelay
    chunkAfter := fun width slack =>
      fitCarryChain width (period - slack - (lutDelay + carryToSum + registerDelay)) carryStep
    hasBlocks := true
    blockWidths := fun _ => (mode.width, mode.width)
    blockDelay := mode.delay
    memoryBits := 20480 }

end Datapath.StratixV
