/-
Bit heaps: sums of bits of many weights, before they are added.

* `BitHeap`: columns of bits, and for each column a count of constant ones.
* `BitHeap.place`: the column of a weight. Weights are absolute; a heap has
  a lowest weight and drops or refuses what is above its top column. Weights have
  64 bits, and so have the sums and differences of them.
* `Heaping`: additions to a heap, which may fail. What was added before the
  failure stays.
* `Heaping.addUnsigned`, `Heaping.addSigned`, `Heaping.addSignExtension`,
  `Heaping.addConstant`: numbers, signed ones with their sign bit inverted
  and ones from there up to the top, which is the same modulo the width.
* `BitHeap.value`: the sum of the heap, modulo its width.
-/
import Datapath.BitHeap.Bit

namespace Datapath

/-- What happens to bits above the top column. -/
inductive Overflow where
  /-- They are refused. -/
  | reject
  /-- They are dropped. -/
  | modular
  deriving DecidableEq, Repr, Inhabited

/-- A sum of weighted bits. -/
structure BitHeap where
  /-- The number of columns. -/
  width : Nat
  /-- The absolute weight of the lowest column. -/
  lsbWeight : Int
  overflow : Overflow
  /-- The bits of each column, in the order in which they were added. -/
  columns : Array (Array HeapBit)
  /-- The number of constant ones in each column. -/
  ones : Array Nat
  columns_size : columns.size = width := by simp
  ones_size : ones.size = width := by simp

namespace BitHeap

instance : Inhabited BitHeap := ⟨⟨0, 0, .reject, #[], #[], rfl, rfl⟩⟩

/-- A heap without bits. It needs a column. -/
def make (width : Nat) (lsbWeight : Int) (overflow : Overflow) : Except BuildError BitHeap :=
  if width = 0 then .error (.configuration .emptyHeap)
  else .ok
    { width, lsbWeight, overflow, columns := Array.replicate width #[],
      ones := Array.replicate width 0 }

/-- The bits of a column, apart from constants. -/
def column (h : BitHeap) (w : Nat) : Array HeapBit := h.columns.getD w #[]

/-- The number of constant ones in a column. -/
def onesAt (h : BitHeap) (w : Nat) : Nat := h.ones.getD w 0

/-- The number of bits in a column, constants included. -/
def height (h : BitHeap) (w : Nat) : Nat := (h.column w).size + h.onesAt w

/-- The numbers of bits in all columns. -/
def heights (h : BitHeap) : List Nat := (List.range h.width).map h.height

/-- The number of bits in the tallest column. -/
def maxHeight (h : BitHeap) : Nat := h.heights.foldl max 0

/-- The number of bits, apart from constants. -/
def bitCount (h : BitHeap) : Nat := h.columns.foldl (fun n c => n + c.size) 0

/-- The column of an absolute weight, or none if what has this weight is
dropped. -/
def place (h : BitHeap) (weight : Int) : Except BuildError (Option Nat) :=
  let weight := wrapSigned64 weight
  let offset := wrapSigned64 (weight - h.lsbWeight)
  if offset < 0 then .error (.configuration (.weightBelowHeap weight h.lsbWeight))
  else if offset < h.width then .ok (some offset.toNat)
  else
    match h.overflow with
    | .modular => .ok none
    | .reject => .error (.configuration (.weightAboveHeap weight h.width h.lsbWeight))

/-- The heap with one more bit in column `w`. -/
def put (h : BitHeap) (w : Nat) (bit : HeapBit) : BitHeap :=
  { h with
    columns := h.columns.modify w (·.push bit)
    columns_size := by simp [h.columns_size] }

/-- The heap with one more constant one in column `w`. -/
def putOne (h : BitHeap) (w : Nat) : BitHeap :=
  { h with
    ones := h.ones.modify w (· + 1)
    ones_size := by simp [h.ones_size] }

/-- The number of ones among some bits. -/
def countOnes (values : Valuation) : List HeapBit → Except BuildError Nat
  | [] => .ok 0
  | b :: bits => do
    let v ← b.source.value values
    return v + (← countOnes values bits)

/-- The sum of the columns from column `w` on. -/
def sumFrom (h : BitHeap) (values : Valuation) (w : Nat) : (count : Nat) → Except BuildError Nat
  | 0 => .ok 0
  | count + 1 => do
    let here ← countOnes values (h.column w).toList
    return ((h.onesAt w + here) <<< w) + (← h.sumFrom values (w + 1) count)

/-- The sum of all bits and ones, in units of the lowest weight and modulo the
width. Every signal that the heap refers to needs a value. -/
def value (h : BitHeap) (values : Valuation) : Except BuildError Nat :=
  if wordBits < h.width then .error (.configuration (.heapTooWide h.width))
  else return (← h.sumFrom values 0 h.width) % (1 <<< h.width)

end BitHeap

/-- Additions to a bit heap. -/
abbrev Heaping := EStateM BuildError BitHeap

namespace Heaping

/-- A signal that must exist in the schedule. -/
def signal (s : Schedule) (id : SignalId) : Heaping Signal :=
  match s.signal? id with
  | some signal => pure signal
  | none => throw (.invariant (.unknownSignal id))

/-- The column of an absolute weight. -/
def place (weight : Int) : Heaping (Option Nat) := fun h =>
  match h.place weight with
  | .ok w => .ok w h
  | .error e => .error e h

/-- Adds a bit that is there from some point in time on. -/
def addBit (weight : Int) (b : BitRef) (ready : Instant) : Heaping Unit := do
  if let some w ← place weight then
    modify fun h => h.put w
      { source := .bit b, weight := w, cycle := ready.cycle, criticalPath := ready.criticalPath }

/-- Adds a bit of a signal, which is there as soon as the signal is. -/
def addSignalBit (s : Schedule) (weight : Int) (b : BitRef) : Heaping Unit := do
  let g ← signal s b.signal
  if g.width ≤ b.index then throw (.invariant (.bitOutsideSignal b.index g.width g.name))
  else addBit weight b ⟨g.cycle, g.criticalPath⟩

/-- Adds `count` bits of a signal from bit `index` on. -/
def addBits (s : Schedule) (weight : Int) (id : SignalId) (index : Nat) :
    (count : Nat) → Heaping Unit
  | 0 => return
  | count + 1 => do
    addSignalBit s weight (.plain id index)
    addBits s (weight + 1) id (index + 1) count

/-- Adds a signal as a number without sign. -/
def addUnsigned (s : Schedule) (id : SignalId) (weight : Int) : Heaping Unit := do
  addBits s weight id 0 (← signal s id).width

/-- Adds a constant one. -/
def addOne (weight : Int) : Heaping Unit := do
  if let some w ← place weight then modify fun h => h.putOne w

/-- Adds `count` constant ones from a weight on. -/
def addOnes (weight : Int) : (count : Nat) → Heaping Unit
  | 0 => return
  | count + 1 => do
    addOne weight
    addOnes (weight + 1) count

/-- Adds constant ones from a weight up to the top column, that is, minus the
weight modulo the width. -/
def addSignExtension (weight : Int) : Heaping Unit := do
  let h ← get
  let top := wrapSigned64 (h.lsbWeight + h.width)
  addOnes weight (top - wrapSigned64 weight).toNat

/-- Adds the product of a hard multiplier block, a number without sign. -/
def addBlock (s : Schedule) (id : SignalId) (weight : Int) : Heaping Unit :=
  addUnsigned s id weight

/-- Adds a signal as a number with a sign, in two's complement. -/
def addSigned (s : Schedule) (id : SignalId) (weight : Int) : Heaping Unit := do
  let width := (← signal s id).width
  if width = 0 then throw (.invariant .emptySignedOperand)
  else
    let sign := weight + (width - 1 : Nat)
    addBits s weight id 0 (width - 1)
    addSignalBit s sign ⟨id, width - 1, true⟩
    addSignExtension sign

/-- Adds constant ones for the set bits of `n`, from bit `i` on. -/
def addSetBits (n : Nat) (weight : Int) (i : Nat) : (count : Nat) → Heaping Unit
  | 0 => return
  | count + 1 => do
    if bitAt n i = 1 then addOne (weight + i)
    addSetBits n weight (i + 1) count

/-- Adds a constant of one word. -/
def addConstant (n : Nat) (weight : Int) : Heaping Unit := addSetBits n weight 0 wordBits

end Heaping

end Datapath
