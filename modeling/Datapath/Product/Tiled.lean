/-
Products made of blocks and tables.

* `TilingReport`: the tiling of a product and how it was found.
* `Site.addCascade`: blocks on top of each other. Every block passes the sum
  so far through the adder of the next one.
* `Site.addTiling`: the best tiling that a search finds, its blocks as
  cascades and the rest as tables.
-/
import Datapath.Multiplier.Architecture
import Datapath.Product.Tables
import Datapath.Tiling.Anneal
import Datapath.Tiling.Chain

namespace Datapath

/-- The tiling of a product and how it was found. -/
structure TilingReport where
  /-- The blocks, with their links in cascades. -/
  placements : Array Tiling.Placement
  /-- The rectangles made of tables. -/
  leftover : Array Tiling.Rect
  /-- The number of cascades. -/
  chains : Nat
  /-- The number of tilings looked at. -/
  evaluations : Nat
  /-- The search stopped on its budget. -/
  budgetExhausted : Bool
  deriving Inhabited

namespace Site

open Contributing (build record)

/-- One block of a cascade: its product and where that counts. -/
structure Stage where
  product : SignalId
  term : CascadeTerm

/-- The product of a block on some bits of the operands. -/
def placeFields (s : Site) (label : String) (x y : OperandField) : Contributing SignalId := do
  let product ← build do
    s.readOperands
    let xs ← Build.declare s!"{label}_X" x.width
    let ys ← Build.declare s!"{label}_Y" y.width
    placeBlock s.target xs ys label
  record product (.block x y false)
  return product

/-- The products of the blocks of a cascade from block `k` on, and the latest
point in time at which one is there. Shifts count from the weight of the
lowest block. -/
def placeStages (s : Site) (label : String) (lowest k : Nat) (ready : Instant) :
    List Tiling.Placement → Contributing (List Stage × Instant)
  | [] => return ([], ready)
  | p :: rest => do
    let x := OperandField.plain p.rect.x p.rect.width
    let y := OperandField.plain p.rect.y p.rect.height
    let product ← s.placeFields s!"{label}_dsp{k}" x y
    let ready := ready.later (← build Build.now)
    let (stages, ready) ← s.placeStages label lowest (k + 1) ready rest
    return (⟨product, ⟨x, y, p.weight - lowest⟩⟩ :: stages, ready)

/-- The sum of a cascade: `sum` of the terms so far, and each further product
through the adder of its block. -/
def addUp (s : Site) (label : String) (width k : Nat) (terms : List CascadeTerm)
    (sum : SignalId) : List Stage → Contributing SignalId
  | [] => return sum
  | stage :: rest => do
    let next ← build (placePostAdder s.target sum stage.product width s!"{label}_sum{k}")
    let terms := terms ++ [stage.term]
    record next (.cascade terms)
    s.addUp label width (k + 1) terms next rest

/-- Adds the sum of cascade `c`, given by its blocks from the lowest up. -/
def addCascade (s : Site) (c : Nat) (blocks : List Tiling.Placement) : Contributing Unit := do
  let lowest := (blocks.head?.map (·.weight)).getD 0
  let label := s!"{s.tag}_c{c}"
  let (stages, ready) ← s.placeStages label lowest 0 s.start blocks
  match stages with
  | [] => return
  | [only] => s.addOperand only.product lowest false
  | first :: others =>
    let width := s.wx + s.wy - lowest
    build do
      Build.addSubcomponent (postAdderComponent width)
      Build.moveTo ready
    let sum ← s.addUp label width 1 [first.term] first.product others
    s.addOperand sum lowest false

/-- Adds the cascades from cascade `c` on, given by their lowest blocks. -/
def addCascades (s : Site) (ps : Array Tiling.Placement) (c : Nat) :
    List Nat → Contributing Unit
  | [] => return
  | head :: heads => do
    s.addCascade c ((Tiling.members ps head).filterMap (ps[·]?))
    s.addCascades ps (c + 1) heads

/-- Adds rectangles of the product as tables. -/
def addRegions (s : Site) : List Tiling.Rect → Contributing Unit
  | [] => return
  | r :: rest => do
    s.addTables r
    s.addRegions rest

variable [Tiling.Surroundings]

/-- The best tiling that a search finds. -/
def findTiling (s : Site) (options : MultiplierOptions) : Except BuildError Tiling.Outcome := do
  let (bx, by_) := s.target.blockWidths false
  let problem ← Tiling.Problem.make ⟨s.wx, s.wy⟩ ⟨bx, by_⟩ options.blockRatio
    (tableFields s.target)
  let outcome := (Tiling.Search.start problem options.budget Tiling.Surroundings.clock).run
    options.strategy
  if outcome.overrun then throw (.invariant .clockOverrun)
  outcome.best.validate
  return outcome

/-- Adds the product as the best tiling that a search finds. -/
def addTiling (s : Site) (options : MultiplierOptions) : Contributing TilingReport := do
  let outcome ← build (Build.ofExcept (s.findTiling options))
  let (heads, placements) := Tiling.chainPlacements outcome.best.placements (max options.maxChain 1)
  s.addCascades placements 0 heads
  s.addRegions outcome.best.leftover.toList
  return { placements, leftover := outcome.best.leftover, chains := heads.length,
           evaluations := outcome.evaluations, budgetExhausted := outcome.budgetExhausted }

end Site

end Datapath
