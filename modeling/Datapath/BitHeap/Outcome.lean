/-
What the compression of a bit heap produced.

* `Compressor`: a full or half adder, whose output counts its inputs.
* `HeapRow`: one of the rows that are left.
* `HeapOutcome`: all compressors in order, the rows, and the plan of their
  addition.
* `HeapOutcome.evaluate`: the sum, through every compressor, the rows and the
  addition as it is planned.
-/
import Datapath.Adder.Simulate
import Datapath.BitHeap.Basic

namespace Datapath

/-- A full or half adder. -/
structure Compressor where
  /-- Two bits, the sum and the carry. -/
  output : SignalId
  inputs : List BitSource
  deriving DecidableEq, Repr, Inhabited

/-- One of the rows left of a heap. -/
structure HeapRow where
  signal : SignalId
  /-- The bit in each column, if there is one. -/
  bits : List (Option BitSource)
  deriving DecidableEq, Repr, Inhabited

/-- What the compression of a heap produced. -/
structure HeapOutcome where
  /-- The signal of the sum. -/
  result : SignalId
  width : Nat
  /-- In order of creation. -/
  compressors : List Compressor
  rows : List HeapRow
  /-- The addition of two rows. -/
  merge : Option ChunkPlan
  rounds : Nat
  deriving Inhabited

/-- Signals that have been computed, and what the rest is worth. -/
def overlay (computed : Std.HashMap SignalId Nat) (values : Valuation) : Valuation := fun id =>
  computed[id]?.or (values id)

/-- The number of ones among some sources. -/
def countSources (values : Valuation) : List BitSource → Except BuildError Nat
  | [] => .ok 0
  | s :: sources => do
    let v ← s.value values
    return v + (← countSources values sources)

/-- The outputs of compressors, one after the other. -/
def runCompressors (values : Valuation) (computed : Std.HashMap SignalId Nat) :
    List Compressor → Except BuildError (Std.HashMap SignalId Nat)
  | [] => .ok computed
  | c :: rest => do
    let count ← countSources (overlay computed values) c.inputs
    runCompressors values (computed.insert c.output count) rest

/-- The value of a row from column `w` on. -/
def rowValue (values : Valuation) (w : Nat) : List (Option BitSource) → Except BuildError Nat
  | [] => .ok 0
  | none :: bits => rowValue values (w + 1) bits
  | some s :: bits => do
    let v ← s.value values
    return (v <<< w) + (← rowValue values (w + 1) bits)

/-- The values of rows. -/
def rowValues (values : Valuation) : List HeapRow → Except BuildError (List Nat)
  | [] => .ok []
  | r :: rows => do
    let v ← rowValue values 0 r.bits
    return v :: (← rowValues values rows)

namespace HeapOutcome

/-- The number of compressors with this many inputs. -/
def countCompressors (o : HeapOutcome) (inputs : Nat) : Nat :=
  o.compressors.countP (·.inputs.length == inputs)

/-- The number of full adders. -/
def fullAdders (o : HeapOutcome) : Nat := o.countCompressors 3

/-- The number of half adders. -/
def halfAdders (o : HeapOutcome) : Nat := o.countCompressors 2

/-- The sum of the heap as the hardware computes it. -/
def evaluate (o : HeapOutcome) (values : Valuation) : Except BuildError Nat :=
  if wordBits < o.width then .error (.configuration (.heapTooWide o.width))
  else do
    let computed ← runCompressors values ∅ o.compressors
    match ← rowValues (overlay computed values) o.rows, o.merge with
    | [], _ => return 0
    | [a], _ => return a
    | [a, b], some plan => plan.simulate a b false
    | [a, b], none => return truncateTo o.width (a + b)
    | rows, _ => throw (.invariant (.rowsLeft rows.length))

end HeapOutcome

end Datapath
