/-
The Artix-7 family: carries at one speed, wires that slow down with the
logarithm of their load, and blocks of 25 by 18 signed bits, of which
unsigned operands can use 24 by 17.
-/
import Datapath.Target.Basic

namespace Datapath.Artix7

def lutDelay : Float := 0.124e-9
def wireBase : Float := 0.300e-9
def wirePerDoubling : Float := 0.025e-9
def carryStart : Float := 0.271e-9
/-- A carry step, averaged over the four bits of a slice. -/
def carryStep : Float := 0.0275e-9
def carryToSum : Float := 0.180e-9
def clockToOutput : Float := 0.280e-9
def setup : Float := 0.050e-9
def registerDelay : Float := clockToOutput + setup
def blockDelay : Float := 1.60e-9

/-- The delay of a wire with `fanout` loads, at least one. -/
def wireDelay (fanout : Nat) : Float :=
  wireBase + wirePerDoubling * (Float.ofNat (max fanout 1)).log2

/-- The delay of an adder is linear in its width. -/
def adderDelay (size : Nat) : Float :=
  lutDelay + carryStart + Float.ofNat (size - 1) * carryStep + carryToSum

/-- The model under the given options. -/
def model (options : TargetOptions) : Target :=
  { family := "artix7"
    options
    lutInputs := 6
    lutDelay
    wireDelay := fun fanout => wireDelay fanout
    adderDelay := fun size => adderDelay size
    registerDelay
    chunkAfter := fun width slack =>
      fitCarryChain width
        (options.frequency.period - slack - (registerDelay + lutDelay + carryStart + carryToSum))
        fun _ => carryStep
    hasBlocks := true
    blockWidths := fun signed => if signed then (25, 18) else (24, 17)
    blockDelay
    memoryBits := 36864 }

end Datapath.Artix7
