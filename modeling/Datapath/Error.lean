/-
Why an operator cannot be built.

* `ParameterFault`: parameters that no operator can have.
* `ConsistencyFault`: a construction that contradicts itself.
* `BuildError`: one of these two, or an element too slow for the clock.
* `BuildError.message`: the wording, the only place that fixes it.
-/
import Datapath.Frequency
import Datapath.Text.Quoted
import Datapath.Tiling.Rect

namespace Datapath

/-- A signal of an operator, counted in the order of declaration. -/
abbrev SignalId := Nat

/-- A signal number as it is shown in messages. -/
def SignalId.shown (id : SignalId) : String := "SignalId(" ++ toString (id : Nat) ++ ")"

/-- Parameters that no operator can have. -/
inductive ParameterFault where
  | frequencyNotPositive (frequency : Frequency)
  | unknownFamily (name : String)
  | emptyAdder
  | budgetNotPositive (seconds : Float)
  | additionTooWide (width : Nat)
  | emptyHeap
  | weightBelowHeap (weight lsb : Int)
  | weightAboveHeap (weight : Int) (width : Nat) (lsb : Int)
  | heapTooWide (width : Nat)
  | emptyTiling (gridWidth gridHeight blockWidth blockHeight : Nat)
  | emptyTable (dx dy wOut : Nat)
  | tableOutputTooWide (wOut dx dy : Nat)
  | tableInputTooWide (width limit : Nat)
  | emptyShifter (wIn maxShift : Nat)
  | shiftTooWide (width : Nat)
  | levelTooWide (width : Nat)
  | emptyProduct (wx wy : Nat)
  | outputTooWide (wOut wx wy : Nat)
  | productTooWide (width : Nat)
  /-- A fault found and worded elsewhere. -/
  | reported (text : String)

/-- A construction that contradicts itself. -/
inductive ConsistencyFault where
  | declaredTwice (name : String)
  | unknownSignal (id : SignalId)
  | usedTooEarly (name : String) (used produced : Nat)
  | chunksMissWidth (sizes : List Nat) (sum width : Nat)
  | noChunks
  | bitOutsideSignal (index width : Nat) (name : String)
  | emptySignedOperand
  | unvalued (id : SignalId)
  | rowsLeft (count : Nat)
  | outsideGrid (rect : Tiling.Rect)
  | overlapping (rect other : Tiling.Rect)
  | cellsMissed (covered total : Nat)
  | clockOverrun
  | productWithoutRule
  /-- A fault found and worded elsewhere. -/
  | reported (text : String)

/-- Why an operator cannot be built. -/
inductive BuildError where
  /-- The parameters are wrong. -/
  | configuration (fault : ParameterFault)
  /-- The element `what` alone takes longer than one clock period. -/
  | timing (what : String) (delay period : Float)
  /-- The construction contradicts itself. -/
  | invariant (fault : ConsistencyFault)

/-- The wording of wrong parameters. -/
def ParameterFault.message : ParameterFault → String
  | frequencyNotPositive f => "target frequency must be positive, got " ++ f.text
  | unknownFamily name =>
    "unknown FPGA family: " ++ Text.quote name ++ ". Supported: stratix_v, artix7"
  | emptyAdder => "adder width must be positive"
  | budgetNotPositive b => "adder delay budget must be positive, got " ++ Decimal.plain b
  | additionTooWide w => s!"cannot simulate a {w}-bit addition on 128-bit values"
  | emptyHeap => "bit heap needs at least one column"
  | weightBelowHeap w lsb => s!"bit weight {w} is below the heap LSB weight {lsb}"
  | weightAboveHeap w width lsb =>
    s!"bit weight {w} is at or above the heap width {width} (LSB {lsb})"
  | heapTooWide w => s!"cannot evaluate a {w}-bit heap on 128-bit values"
  | emptyTiling gw gh bw bh => s!"cannot tile a {gw}x{gh} grid with {bw}x{bh} blocks"
  | emptyTable dx dy w => s!"multiplication table needs non-empty fields, got {dx}x{dy} -> {w}"
  | tableOutputTooWide w dx dy => s!"table output of {w} bits is wider than a {dx}x{dy} product"
  | tableInputTooWide w limit => s!"table input of {w} bits exceeds {limit}"
  | emptyShifter w s => s!"shifter needs a non-empty input and shift, got {w} by {s}"
  | shiftTooWide w => s!"shift amount of {w} bits is too wide"
  | levelTooWide w => s!"cannot evaluate a {w}-bit shifter level on 128-bit values"
  | emptyProduct wx wy => s!"multiplier inputs must be at least one bit wide, got {wx}x{wy}"
  | outputTooWide w wx wy => s!"output of {w} bits is too large for a {wx}x{wy} multiplier"
  | productTooWide w => s!"cannot emulate a {w}-bit product on 128-bit values"
  | reported text => text

/-- The wording of a contradiction. -/
def ConsistencyFault.message : ConsistencyFault → String
  | declaredTwice name => s!"signal '{name}' declared twice"
  | unknownSignal id => "unknown signal " ++ SignalId.shown id
  | usedTooEarly name used produced =>
    s!"signal '{name}' used at cycle {used} but produced at cycle {produced}"
  | chunksMissWidth sizes sum width =>
    "chunk sizes " ++ Text.listed sizes ++ s!" sum to {sum}, expected {width}"
  | noChunks => "an addition without chunks"
  | bitOutsideSignal index width name => s!"bit {index} of {width}-bit signal '{name}'"
  | emptySignedOperand => "signed operand of width 0"
  | unvalued id => "no value for signal " ++ SignalId.shown id
  | rowsLeft n => s!"{n} rows left after compression"
  | outsideGrid r => r.shown ++ " leaves the grid"
  | overlapping r s => r.shown ++ " overlaps " ++ s.shown
  | cellsMissed covered total => s!"tiling covers {covered} of {total} cells"
  | clockOverrun => "a share of the time outlasts the clock"
  | productWithoutRule => "hard multiplier product has no value rule"
  | reported text => text

/-- The wording of an error. -/
def BuildError.message : BuildError → String
  | configuration fault => "configuration error: " ++ fault.message
  | timing what delay period =>
    "timing infeasible: " ++ what ++ " needs " ++ Decimal.scientific delay ++
      "s but the period is " ++ Decimal.scientific period ++ "s"
  | invariant fault => "invariant violation: " ++ fault.message

end Datapath
