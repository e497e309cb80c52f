/-
Integer multipliers.

* `MultiplierPlan.make`: widths, guard bits and the way to compute the
  product.
* `Multiplier.build`: a multiplier `R = X * Y`. Where the product goes through
  a heap, guard bits are kept below the output, a bit is added for rounding,
  and the sum is cut off above the guard bits.
* `Multiplier.contribute`: a product added to the heap of another operator.
* `Multiplier.emulate`: the outputs that are right; `Multiplier.evaluate`: the
  output of what was built.
-/
import Datapath.BitHeap.Compress
import Datapath.BitHeap.Guard
import Datapath.Product.Tiled

namespace Datapath

variable [Tiling.Surroundings]

/-- The output width that stands for `wOut`, where zero stands for the whole
product. -/
def outputWidth (wx wy wOut : Nat) : Except BuildError Nat :=
  if wx = 0 ∨ wy = 0 then .error (.configuration (.emptyProduct wx wy))
  else if wx + wy < wOut then .error (.configuration (.outputTooWide wOut wx wy))
  else .ok (if wOut = 0 then wx + wy else wOut)

/-- Adds a product in one of the ways to compute it. -/
def Site.addProduct (s : Site) (options : MultiplierOptions) :
    Architecture → Contributing (Option TilingReport)
  | .singleTable => do
    s.addTable
    return none
  | .singleBlock => do
    s.addBlock
    return none
  | .rows => do
    s.addRows
    return none
  | .logic => do
    s.addTables ⟨0, 0, s.wx, s.wy⟩
    return none
  | .tiling => some <$> s.addTiling options

/-- The note that a tiling may not be the best. -/
def budgetNote (r : TilingReport) : Diagnostic :=
  ((Diagnostic.plain .note .budgetSpent
    s!"tiling search stopped after {r.evaluations} evaluations").withNote
    "the best tiling found so far is used").withHelp
    "raise multiplier.max_time_in_minutes to search further"

/-- Reports a tiling that may not be the best. -/
def reportTiling : Option TilingReport → Build Unit
  | some r => if r.budgetExhausted then Build.diagnose (budgetNote r) else return
  | none => return

/-- Reports something that may not have happened. -/
def reportAny : Option Diagnostic → Build Unit
  | some d => Build.diagnose d
  | none => return

/-! ### Plans -/

/-- What is fixed about a multiplier before it is built. -/
structure MultiplierPlan where
  wx : Nat
  wy : Nat
  wOut : Nat
  signed : Bool
  /-- The bits kept below the output. -/
  guard : Nat
  architecture : Architecture
  /-- The warning that goes with the architecture. -/
  fallback : Option Diagnostic

namespace MultiplierPlan

/-- The plan of a multiplier on a target. -/
def make (t : Target) (wx wy wOut : Nat) (signed : Bool) (options : MultiplierOptions) :
    Except BuildError MultiplierPlan := do
  let wOut ← outputWidth wx wy wOut
  let (architecture, fallback) :=
    Architecture.select t (max wx wy) (min wx wy) signed options.blockRatio
  return { wx, wy, wOut, signed, guard := guardBits wx wy wOut, architecture, fallback }

/-- The width of the whole product, if 32 bits are enough to count it. -/
def full (p : MultiplierPlan) : Nat := p.wx + p.wy

/-- The width of the heap. -/
def heapWidth (p : MultiplierPlan) : Nat := wrap32 (p.wOut + p.guard)

/-- The name of the component. -/
def name (p : MultiplierPlan) : String :=
  let means := if p.architecture.usesBlocks then "UsingDSP" else "LogicOnly"
  let sign := if p.signed then "signed" else "unsigned"
  s!"IntMultiplier_{means}_{p.wx}_{p.wy}_{p.wOut}_{sign}"

/-- The warning that the output is narrower than both inputs. -/
def truncationWarning (p : MultiplierPlan) : Option Diagnostic :=
  if p.wOut < min p.wx p.wy then
    some ((Diagnostic.plain .warning .deepTruncation
      s!"output of {p.wOut} bits is narrower than both {p.wx}-bit and {p.wy}-bit inputs").withHelp
      "truncating the inputs first is probably cheaper")
  else none

end MultiplierPlan

/-! ### Construction -/

/-- What computes the product of a multiplier. -/
inductive MultiplierCore where
  | table (table : ProductTable)
  /-- A block with this output. -/
  | block (product : SignalId)
  | heap (outcome : HeapOutcome)

/-- A multiplier `R = X * Y`. -/
structure Multiplier where
  plan : MultiplierPlan
  /-- The partial products. -/
  model : ProductModel
  core : MultiplierCore
  /-- The tiling of the product, if it was tiled. -/
  tiling : Option TilingReport

/-- The part of a multiplier that computes the product: the signal of the
output with bits above it, how that was computed, the partial products, and
the tiling. -/
structure MultiplierCircuit where
  result : SignalId
  core : MultiplierCore
  model : ProductModel
  tiling : Option TilingReport

namespace MultiplierPlan

/-- The partial products of two signals, in a heap of their own. -/
def fillHeap (p : MultiplierPlan) (t : Target) (options : MultiplierOptions) (m : ProductModel)
    (x y : SignalId) : Build (Option TilingReport × Contribution) := do
  let heap ← Build.ofExcept (BitHeap.make p.heapWidth 0 .reject)
  let site ← Site.enter t m x y ((p.heapWidth : Int) - p.full)
  let steps : Contributing (Option TilingReport) := do
    let report ← site.addProduct options p.architecture
    if 0 < p.guard then Contributing.heap fun _ => Heaping.addOne (p.guard - 1 : Nat)
    return report
  fun b =>
    match steps { builder := b, heap, parts := m.parts } with
    | .ok report c => .ok (report, { c with builder := default }) c.builder
    | .error e c => .error e c.builder

/-- The product of two signals, given in the order of the model. -/
def buildCircuit (p : MultiplierPlan) (t : Target) (options : MultiplierOptions) (m : ProductModel)
    (x y : SignalId) : Build MultiplierCircuit :=
  match p.architecture with
  | .singleTable => do
    let table ← Build.ofExcept (ProductTable.make m.wx m.wy p.wOut p.signed p.signed)
    let out ← placeTable t x y table "mult"
    return { result := out, core := .table table, model := m, tiling := none }
  | .singleBlock => do
    let out ← placeBlock t x y "mult_dsp"
    let model := m.insert out (.block (.plain 0 m.wx) (.plain 0 m.wy) p.signed)
    return { result := out, core := .block out, model, tiling := none }
  | _ => do
    let (tiling, c) ← p.fillHeap t options m x y
    let outcome ← c.heap.compress t
    return { result := outcome.result, core := .heap outcome, model := { m with parts := c.parts },
             tiling }

/-- The steps that build a multiplier. -/
def steps (p : MultiplierPlan) (t : Target) (options : MultiplierOptions) : Build Multiplier := do
  reportAny p.fallback
  reportAny p.truncationWarning
  let x ← Build.addInput "X" p.wx
  let y ← Build.addInput "Y" p.wy
  let model := ProductModel.forWidths p.wx p.wy p.signed
  let (a, b) := model.order x y
  let circuit ← p.buildCircuit t options model a b
  reportTiling circuit.tiling
  let _ ← Build.addOutput "R" p.wOut circuit.result
  return { plan := p, model := circuit.model, core := circuit.core, tiling := circuit.tiling }

end MultiplierPlan

namespace Multiplier

/-- A multiplier of `wx` by `wy` bits with inputs `X` and `Y` and an output
`R` of `wOut` bits, the high ones of the product. -/
def build (t : Target) (wx wy wOut : Nat) (signed : Bool) (options : MultiplierOptions) :
    Except BuildError (Multiplier × BuiltOperator) := do
  let p ← MultiplierPlan.make t wx wy wOut signed options
  (Builder.forTarget p.name t).construct (p.steps t options)

/-! ### Values -/

/-- The product of the low bits of two words, modulo its own width. -/
def exactProduct (wx wy : Nat) (signed : Bool) (x y : Nat) : Nat :=
  if signed then truncateInt (wx + wy) (wrapSigned (signedValue wx x * signedValue wy y))
  else truncateTo wx x * truncateTo wy y

/-- The outputs that are right: the exact product or, if it is cut off, the
high bits of it or one more. -/
def emulate (m : Multiplier) (x y : Nat) : Except BuildError (List Nat) :=
  let p := m.plan
  if wordBits < p.full then .error (.configuration (.productTooWide p.full))
  else
    let product := exactProduct p.wx p.wy p.signed x y
    if p.wOut = p.full then .ok [product]
    else
      let floor := product >>> (p.full - p.wOut)
      .ok [floor, truncateTo p.wOut (floor + 1)]

/-- The output as the hardware computes it. -/
def evaluate (m : Multiplier) (x y : Nat) : Except BuildError Nat :=
  let p := m.plan
  match m.core with
  | .table t =>
    let (a, b) := m.model.operands x y
    .ok (t.entry (b <<< m.model.wx + a))
  | .block id =>
    match m.model.value? id x y with
    | some product => .ok (truncateTo p.wOut (product >>> (p.full - p.wOut)))
    | none => .error (.invariant .productWithoutRule)
  | .heap outcome => do
    let sum ← outcome.evaluate fun id => m.model.value? id x y
    return truncateTo p.wOut (sum >>> p.guard)

/-- The compression of the heap, if there is one. -/
def heapOutcome? (m : Multiplier) : Option HeapOutcome :=
  match m.core with
  | .heap outcome => some outcome
  | _ => none

end Multiplier

/-! ### Products in the heap of another operator -/

/-- What a product added to the heap of another operator. -/
structure VirtualMultiplier where
  architecture : Architecture
  /-- The partial products. -/
  model : ProductModel
  /-- The tiling of the product, if it was tiled. -/
  tiling : Option TilingReport

/-- Adds the product of two signals to a heap, its lowest bit at the given
weight. Bits below the heap are dropped, nothing is rounded, and the heap is
not compressed. -/
def Multiplier.contribute (t : Target) (x y : SignalId) (signed : Bool) (weight : Int)
    (options : MultiplierOptions) : Contributing VirtualMultiplier := do
  let wx := (← Contributing.build (Build.schedule (Schedule.signal x))).width
  let wy := (← Contributing.build (Build.schedule (Schedule.signal y))).width
  let _ ← Contributing.build (Build.ofExcept (outputWidth wx wy 0))
  let model := ProductModel.forWidths wx wy signed
  let (architecture, fallback) := Architecture.select t model.wx model.wy signed options.blockRatio
  let (a, b) := model.order x y
  let site ← Contributing.build do
    reportAny fallback
    Site.enter t model a b weight
  modify fun c => { c with parts := ∅ }
  let tiling ← site.addProduct options architecture
  Contributing.build (reportTiling tiling)
  return { architecture, model := { model with parts := (← get).parts }, tiling }

end Datapath
