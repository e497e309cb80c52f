/-
Partial products on their way into a bit heap.

* `Site`: a multiplication inside an operator. Every partial product starts
  at the point in time at which both operands are there.
* `Contribution`, `Contributing`: the operator under construction, the heap,
  and the partial products so far; and steps that change them.
* `Site.addBits`: bits of a signal as bits of the product. Bits below the
  heap are dropped. A negative bit is added inverted, with constant ones from
  its weight up.
* `Site.addRows`, `Site.addTable`, `Site.addBlock`: a whole product as rows of
  bits, as one table or as one block.
-/
import Datapath.BitHeap.Basic
import Datapath.Product.Element
import Datapath.Product.Model

namespace Datapath

/-- A multiplication inside an operator. -/
structure Site where
  target : Target
  /-- The wider operand. -/
  x : SignalId
  y : SignalId
  wx : Nat
  wy : Nat
  signed : Bool
  /-- The weight in the heap of the lowest bit of the product. -/
  base : Int
  /-- What the names of its signals begin with. -/
  tag : String
  /-- The point in time at which both operands are there. -/
  start : Instant

/-- What partial products go into. -/
structure Contribution where
  builder : Builder
  heap : BitHeap
  parts : Std.HashMap SignalId PartialProduct
  deriving Inhabited

/-- Steps that add partial products. -/
abbrev Contributing := EStateM BuildError Contribution

namespace Contributing

variable {α : Type}

/-- A step of the construction alone. -/
def build (step : Build α) : Contributing α := fun c =>
  let b := c.builder
  let c := { c with builder := default }
  match step b with
  | .ok a b => .ok a { c with builder := b }
  | .error e b => .error e { c with builder := b }

/-- An addition to the heap, under the schedule as it is. -/
def heap (step : Schedule → Heaping α) : Contributing α := fun c =>
  let h := c.heap
  let c := { c with heap := default }
  match step c.builder.schedule h with
  | .ok a h => .ok a { c with heap := h }
  | .error e h => .error e { c with heap := h }

/-- Records how the value of a partial product follows from the operands. -/
def record (id : SignalId) (p : PartialProduct) : Contributing Unit :=
  modify fun c => { c with parts := c.parts.insert id p }

end Contributing

namespace Site

open Contributing (build heap record)

/-- A multiplication of two signals, the operands of a model in its order. -/
def enter (t : Target) (m : ProductModel) (x y : SignalId) (base : Int) : Build Site := do
  Build.schedule (Schedule.rewindTo x)
  Build.syncTo y
  let start ← Build.now
  return { target := t, x, y, wx := m.wx, wy := m.wy, signed := m.signed, base,
           tag := s!"mult{← Build.uniqueId}", start }

/-- Uses both operands at the point in time at which they are there. -/
def readOperands (s : Site) : Build Unit := do
  Build.moveTo s.start
  let _ ← Build.read s.x
  let _ ← Build.read s.y

/-- Adds a bit of a signal as bit `weight` of the product. -/
def addBit (s : Site) (b : BitRef) (weight : Int) : Contributing Unit := do
  let w := wrapSigned64 (s.base + weight)
  let c ← get
  if w < c.heap.lsbWeight then return
  else
    heap fun schedule => do
      Heaping.addSignalBit schedule w b
      if b.negated then Heaping.addSignExtension w

/-- Adds `count` bits of a signal from bit `index` on, as bits of the product
from bit `weight` on. -/
def addBits (s : Site) (id : SignalId) (negative : Nat → Bool) (weight : Int) (index : Nat) :
    (count : Nat) → Contributing Unit
  | 0 => return
  | count + 1 => do
    s.addBit ⟨id, index, negative index⟩ weight
    s.addBits id negative (weight + 1) (index + 1) count

/-- Adds a whole signal as bits of the product from bit `weight` on; its top
bit may be negative. -/
def addOperand (s : Site) (id : SignalId) (weight : Int) (signed : Bool) : Contributing Unit := do
  let width := (← build (Build.schedule (Schedule.signal id))).width
  s.addBits id (fun i => signed && i + 1 == width) weight 0 width

/-! ### Rows of bits -/

/-- Adds the row of bit `j` of the second operand. With signs, the bits that
exactly one sign weighs are negative. -/
def addRow (s : Site) (j : Nat) : Contributing Unit := do
  let row ← build (Build.declare s!"{s.tag}_pp{j}" s.wx)
  record row (.row j)
  s.addBits row (fun i => s.signed && ((i + 1 == s.wx) != (j + 1 == s.wy))) j 0 s.wx

/-- Adds the rows from row `j` on. -/
def addRowsFrom (s : Site) (j : Nat) : (count : Nat) → Contributing Unit
  | 0 => return
  | count + 1 => do
    s.addRow j
    s.addRowsFrom (j + 1) count

/-- Adds the product as one row for each bit of the second operand. -/
def addRows (s : Site) : Contributing Unit := do
  build do
    s.readOperands
    let _ ← Build.advance (s.target.wireDelay s.wx + s.target.lutDelay) "partial product row"
  s.addRowsFrom 0 s.wy

/-! ### Products in one piece -/

/-- Adds the product as one table. -/
def addTable (s : Site) : Contributing Unit := do
  let table ← build (Build.ofExcept (ProductTable.make s.wx s.wy (s.wx + s.wy) s.signed s.signed))
  let out ← build do
    Build.moveTo s.start
    placeTable s.target s.x s.y table s!"{s.tag}_tbl"
  record out (.table table (.plain 0 s.wx) (.plain 0 s.wy))
  s.addOperand out 0 s.signed

/-- Adds the product as one block. -/
def addBlock (s : Site) : Contributing Unit := do
  let out ← build do
    Build.moveTo s.start
    placeBlock s.target s.x s.y s!"{s.tag}_dsp"
  record out (.block (.plain 0 s.wx) (.plain 0 s.wy) s.signed)
  s.addOperand out 0 s.signed

end Site

end Datapath
