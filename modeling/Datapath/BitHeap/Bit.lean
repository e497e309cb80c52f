/-
Single bits of signals.

* `Valuation`: values for signals.
* `BitRef`: a bit of a signal, possibly inverted; `BitRef.valueIn` reads it
  off the value of the signal.
* `BitSource`: such a bit or a constant one; `BitSource.value` is its value.
* `HeapBit`: a source with the point in time from which it is there.
* `HeapBit.upTo`: the order by that point, total also on delays that are no
  numbers.
-/
import Datapath.Bits
import Datapath.Schedule

namespace Datapath

/-- Values for signals. -/
abbrev Valuation := SignalId → Option Nat

/-- A bit of a signal. -/
structure BitRef where
  signal : SignalId
  index : Nat
  negated : Bool
  deriving DecidableEq, Repr, Inhabited

namespace BitRef

/-- Bit `index` of a signal as it is. -/
def plain (signal : SignalId) (index : Nat) : BitRef := { signal, index, negated := false }

/-- The inverted bit. -/
def inverted (b : BitRef) : BitRef := { b with negated := !b.negated }

/-- The bit in a value of its signal, which is one word. -/
def valueIn (b : BitRef) (v : Nat) : Nat :=
  if b.negated then 1 - wordBit v b.index else wordBit v b.index

end BitRef

/-- Where a bit comes from. -/
inductive BitSource where
  | bit (b : BitRef)
  /-- The constant one. -/
  | one
  deriving DecidableEq, Repr, Inhabited

/-- The value of a source, if the signal behind it has one. -/
def BitSource.value (values : Valuation) : BitSource → Except BuildError Nat
  | one => .ok 1
  | bit b =>
    match values b.signal with
    | some v => .ok (b.valueIn v)
    | none => .error (.invariant (.unvalued b.signal))

/-- A bit with the point in time from which it is there. -/
structure HeapBit where
  source : BitSource
  /-- The column, counted from the lowest one. -/
  weight : Nat
  cycle : Nat
  criticalPath : Delay
  deriving Inhabited

namespace HeapBit

/-- The point in time from which the bit is there. -/
def ready (b : HeapBit) : Instant := ⟨b.cycle, b.criticalPath⟩

/-- The order by availability: by cycle, and within a cycle by delay. -/
def availability (a b : HeapBit) : Ordering :=
  (compare a.cycle b.cycle).then (compare a.criticalPath.orderKey b.criticalPath.orderKey)

/-- Bit `a` is there no later than bit `b`. -/
def upTo (a b : HeapBit) : Bool := (availability a b).isLE

/-- The bits by availability; those that are there at once keep their
order. -/
def sorted (bits : List HeapBit) : List HeapBit := bits.mergeSort upTo

/-- The bit that is there last, of several the last one. -/
def latest : List HeapBit → Option HeapBit
  | [] => none
  | b :: bits => some (bits.foldl (fun late c => if upTo late c then c else late) b)

end HeapBit

end Datapath
