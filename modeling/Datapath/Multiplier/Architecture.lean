/-
How a product is computed.

* `MultiplierOptions`: what the designer prefers.
* `Architecture`: the ways to compute a product.
* `Architecture.select`: the way that fits a product and a target. Signed
  products that are too large for one block are made of logic, with a
  warning.
-/
import Datapath.Diagnostic.Basic
import Datapath.Target.Basic
import Datapath.Tiling.Search

namespace Datapath

/-- What the designer of a multiplier prefers. -/
structure MultiplierOptions where
  /-- The preference for blocks over logic, from zero, which means no blocks,
  to one. -/
  blockRatio : Float
  /-- How a tiling is looked for. -/
  strategy : Tiling.Strategy
  /-- How long a tiling is looked for. -/
  budget : Tiling.Budget
  /-- The length of the longest cascade. -/
  maxChain : Nat
  deriving Inhabited

/-- Blocks wherever they fit, in pairs, looked for during one minute. -/
def MultiplierOptions.standard : MultiplierOptions :=
  { blockRatio := 1.0
    strategy := .exhaustive
    budget := { time := 60 * 1000000000, evaluations := none }
    maxChain := 2 }

/-- The ways to compute a product. -/
inductive Architecture where
  /-- One table of all products. -/
  | singleTable
  /-- One row for each bit of the narrower operand. -/
  | rows
  /-- One hard multiplier block. -/
  | singleBlock
  /-- Hard multiplier blocks side by side, and logic where they do not fit. -/
  | tiling
  /-- Tables alone. -/
  | logic
  deriving DecidableEq, Repr, Inhabited

namespace Architecture

/-- Hard multiplier blocks are used. -/
def usesBlocks : Architecture → Bool
  | singleBlock | tiling => true
  | _ => false

/-- The warning that a signed product does not fit one block. -/
def fallbackWarning (wx wy dx dy : Nat) : Diagnostic :=
  ((Diagnostic.plain .warning .signedFallback
    s!"signed {wx}x{wy} product does not fit one {dx}x{dy} hard multiplier").withNote
    "hard multiplier tiling handles unsigned products only").withHelp
    "the product is built from logic tables"

/-- The way to compute a product of `wx` by `wy` bits, the wider operand
first. -/
def select (t : Target) (wx wy : Nat) (signed : Bool) (ratio : Float) :
    Architecture × Option Diagnostic :=
  if wx + wy ≤ t.lutInputs + 2 then (singleTable, none)
  else if wy ≤ 2 then (rows, none)
  else if ratio ≤ 0.0 ∨ !t.hasHardMultipliers then (logic, none)
  else
    let (dx, dy) := t.blockWidths signed
    if wx ≤ dx ∧ wy ≤ dy ∨ wy ≤ dx ∧ wx ≤ dy then
      (if t.worthBlock wx wy then singleBlock else logic, none)
    else if signed then (logic, some (fallbackWarning wx wy dx dy))
    else (tiling, none)

end Architecture

end Datapath
