/-
Chunk plans of carry-select additions.

* `Chunk`, `ChunkPlan`: the chunks of an addition from its least significant
  end, and the stages at which carries are resolved and sums selected.
* `ChunkPlan.ofSizes`: a plan from chunk sizes, which have to be positive and
  to add up to the width.
* `variableSizes`: chunks that grow with the time that the carries before
  them take.
* `uniformSizes`: chunks of one size, for additions too fast for these.
* `ChunkPlan.make`: the plan of an addition on a target.
-/
import Datapath.Bits
import Datapath.Schedule

namespace Datapath

/-- How the chunks of an addition were chosen. -/
inductive PlanPhase where
  /-- One chunk. -/
  | single
  /-- Sizes by delay. -/
  | variable
  /-- One size for all chunks. -/
  | uniform
  deriving DecidableEq, Repr, Inhabited

/-- One chunk of an addition. -/
structure Chunk where
  size : Nat
  /-- The place of its least significant bit. -/
  offset : Nat
  /-- The stage at which its sums are there. -/
  sumStage : Nat
  deriving DecidableEq, Repr, Inhabited

/-- The chunks of an addition. -/
structure ChunkPlan where
  width : Nat
  /-- From the least significant end. -/
  chunks : List Chunk
  phase : PlanPhase
  /-- The stage at which the carries are resolved. -/
  carryStage : Nat
  /-- The stage at which the sums are selected. -/
  selectStage : Nat
  deriving DecidableEq, Repr, Inhabited

/-- Chunks of these sizes side by side from `offset` on. -/
def layChunks : Nat → List Nat → List Chunk
  | _, [] => []
  | offset, size :: sizes => ⟨size, offset, 0⟩ :: layChunks (offset + size) sizes

namespace ChunkPlan

/-- The chunk sizes. -/
def sizes (p : ChunkPlan) : List Nat := p.chunks.map (·.size)

/-- The number of chunks. -/
def size (p : ChunkPlan) : Nat := p.chunks.length

/-- Sizes by delay were given up for one size. -/
def degenerate (p : ChunkPlan) : Bool := p.phase == .uniform

/-- The stages of carries and selection: none for a single chunk, one
register in front of both, and with uniform chunks one between them. -/
def stages : PlanPhase → Nat × Nat
  | .single => (0, 0)
  | .variable => (1, 1)
  | .uniform => (1, 2)

/-- The plan with chunks of these sizes. -/
def ofSizes (width : Nat) (sizes : List Nat) (phase : PlanPhase) : Except BuildError ChunkPlan :=
  let sum := sizes.foldr (· + ·) 0
  if sum = width ∧ 0 ∉ sizes then
    let (carryStage, selectStage) := stages phase
    .ok { width, chunks := layChunks 0 sizes, phase, carryStage, selectStage }
  else .error (.invariant (.chunksMissWidth sizes sum width))

end ChunkPlan

/-! ### Chunk sizes -/

/-- Two chunks of this size in a row mean that delays leave no room for
chunks that pay. -/
def collapsedSize : Nat := 2

/-- The sizes after the first two chunks, for the `remaining` bits, and
whether two chunks in a row collapsed. `previous` is the size of the chunk
before, and `propagation` the length of the carry addition so far. The rest
is one chunk as soon as an adder for it fits in the budget, together with
the carries, or when it is shorter than four bits. -/
def laterSizes (t : Target) (budget inputSlack : Float) (remaining previous propagation : Nat) :
    List Nat × Bool :=
  if remaining = 0 then ([], false)
  else
    let carryDelay := (t.adderDelay (propagation + 2)).seconds
    let slack := budget - (t.adderDelay remaining).seconds - carryDelay
    if slack > 0.0 ∨ remaining < 4 then ([remaining], false)
    else
      let size := min (max (t.chunkAfter remaining (carryDelay + inputSlack)) 1) remaining
      let (rest, collapsed) :=
        laterSizes t budget inputSlack (remaining - size) size (propagation + 2)
      (size :: rest, collapsed || previous == size && size == collapsedSize)
termination_by remaining

/-- Chunk sizes by delay, beginning with two chunks of the size `base`. -/
def variableSizes (t : Target) (width base : Nat) (budget : Float) : List Nat × Bool :=
  let spent := t.period - budget
  let inputSlack := if spent > 0.0 then spent else 0.0
  let (rest, collapsed) := laterSizes t budget inputSlack (width - wrap32 (2 * base)) base 0
  (base :: base :: rest, collapsed)

/-- Chunks of one size between one bit and the whole width, the last of
which takes the remainder. -/
def uniformSizes (width chunk : Nat) : List Nat :=
  let chunk := max 1 (min chunk width)
  let last := if width % chunk = 0 then chunk else width % chunk
  List.replicate ((width - last) / chunk) chunk ++ [last]

/-- The plan of an addition of `width` bits on a target, with `budget`
seconds left in the first period. -/
def ChunkPlan.make (t : Target) (width : Nat) (budget : Float) : Except BuildError ChunkPlan :=
  if width = 0 then .error (.configuration .emptyAdder)
  else if budget.isNaN ∨ budget ≤ 0.0 then .error (.configuration (.budgetNotPositive budget))
  else
    let base := t.chunk width
    if !t.pipelined ∨ width ≤ base then ofSizes width [width] .single
    else if width ≤ wrap32 (2 * base) then ofSizes width [base, width - base] .variable
    else
      let (sizes, collapsed) := variableSizes t width base budget
      if collapsed then ofSizes width (uniformSizes width (t.chunk width)) .uniform
      else ofSizes width sizes .variable

end Datapath
