/-
Multiplication tables.

* `ProductTable`: a table of all products of two small fields.
* `ProductTable.make`: the parameters that a table can have. The input width is
  counted in 32 bits.
* `ProductTable.entry`: what it holds, the product rounded to the output
  width. A half is rounded up.
* `ProductTable.component`: the table as a component of a target.
-/
import Datapath.Bits
import Datapath.Builder

namespace Datapath

/-- A table of all products of a field of `dx` bits and one of `dy` bits. The
second field lies above the first in the input. -/
structure ProductTable where
  dx : Nat
  dy : Nat
  /-- The output width. -/
  wOut : Nat
  /-- The first field has a sign. -/
  signedX : Bool
  /-- The second field has a sign. -/
  signedY : Bool
  deriving DecidableEq, Repr, Inhabited

namespace ProductTable

/-- The widest input of a table. -/
def maxInput : Nat := 16

/-- A table with these parameters, if there can be one. -/
def make (dx dy wOut : Nat) (signedX signedY : Bool) : Except BuildError ProductTable :=
  if dx = 0 ∨ dy = 0 ∨ wOut = 0 then .error (.configuration (.emptyTable dx dy wOut))
  else
    let width := wrap32 (dx + dy)
    if width < wOut then .error (.configuration (.tableOutputTooWide wOut dx dy))
    else if maxInput < width then .error (.configuration (.tableInputTooWide width maxInput))
    else .ok { dx, dy, wOut, signedX, signedY }

/-- The input width. -/
def inputWidth (t : ProductTable) : Nat := wrap32 (t.dx + t.dy)

/-- The name of the component. Tables with equal parameters share it. -/
def name (t : ProductTable) : String :=
  s!"SmallMultTable_{t.dx}_{t.dy}_{t.wOut}_{sign t.signedX}{sign t.signedY}"
where
  sign (signed : Bool) : String := if signed then "s" else "u"

/-- A field of some width as a number with or without sign. Shifts go around the
word. -/
def interpret (signed : Bool) (width n : Nat) : Int :=
  if signed ∧ bitAt n ((width - 1) % wordBits) = 1 then
    (n : Int) - (1 <<< (width % wordBits) : Nat)
  else n

/-- The exact product that an input stands for. -/
def product (t : ProductTable) (input : Nat) : Int :=
  let input := truncateTo t.inputWidth input
  interpret t.signedX t.dx (truncateTo t.dx input) *
    interpret t.signedY t.dy (input >>> (t.dx % wordBits))

/-- The entry for an input, the product in two's complement without the low
bits that the output has no room for. It is rounded to the nearest, and a half
is rounded up. -/
def entry (t : ProductTable) (input : Nat) : Nat :=
  let p := (t.product input % (1 <<< t.inputWidth : Nat)).toNat
  let dropped := t.inputWidth - t.wOut
  let rounded := if 0 < dropped then (p + (1 <<< (dropped - 1))) >>> dropped else p
  rounded % (1 <<< t.wOut)

/-- All entries in the order of inputs. -/
def entries (t : ProductTable) : Array Nat := (Array.range (1 <<< t.inputWidth)).map t.entry

/-- The table lives in a memory block: it does not fit in one lookup table,
nor in half a block. -/
def inMemory (t : ProductTable) (target : Target) : Bool :=
  target.lutInputs < t.inputWidth && target.memoryBits ≤ 2 * (t.wOut <<< t.inputWidth)

/-- The delay of one of `fanout` tables on the same inputs. Inputs wider than
one lookup table cost a second level. -/
def delay (t : ProductTable) (target : Target) (fanout : Nat) : Delay :=
  let level := target.wireDelay fanout + target.lutDelay
  if target.lutInputs < t.inputWidth then level + target.wireDelay 1 + target.lutDelay else level

/-- What an element of a table is called in messages. -/
def elementName : String := "multiplication table"

/-- The steps that build a table: input `X` and output `Y`. -/
def build (t : ProductTable) (target : Target) : Build Unit := do
  let x ← Build.addInput "X" t.inputWidth
  let _ ← Build.advance (t.delay target 1) elementName
  let _ ← Build.addOutput "Y" t.wOut x

/-- The table as a component. -/
def component (t : ProductTable) (target : Target) : Except BuildError Component :=
  match t.build target (.forTarget t.name target) with
  | .error e _ => .error e
  | .ok _ b =>
    .ok (b.finishWith (.table
      { inputWidth := t.inputWidth, outputWidth := t.wOut, values := t.entries,
        inMemory := t.inMemory target })).component

end ProductTable

end Datapath
