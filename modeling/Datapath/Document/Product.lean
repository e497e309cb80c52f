/-
Products and shifts in documents.

* `Architecture.codec`, `ShiftDirection.codec`: architectures and directions
  by name.
* `HeapBit.codec`: bits of a heap.
* `PartialProduct.codec`: how the value of a partial product follows from the
  operands.
-/
import Datapath.BitHeap.Bit
import Datapath.Document.Codec
import Datapath.Multiplier.Architecture
import Datapath.Product.Model
import Datapath.Shifter

namespace Datapath

open Document

/-- Architectures by name. -/
def Architecture.codec : Codec Architecture :=
  words [("SingleTable", .singleTable), ("AndRows", .rows), ("SingleDsp", .singleBlock),
    ("Tiling", .tiling), ("LogicOnly", .logic)]

/-- Directions by name. -/
def ShiftDirection.codec : Codec ShiftDirection := words [("Left", .left), ("Right", .right)]

/-- Bits of signals. -/
def BitRef.codec : Codec BitRef := record <| BitRef.mk
  <$> field "signal" (natural 32) (·.signal)
  <*> field "index" (natural 32) (·.index)
  <*> field "negated" boolean (·.negated)

/-- Sources of bits. -/
def BitSource.codec : Codec BitSource := choice [
  .holding "Signal" BitRef.codec .bit
    (fun | .bit b => some b
         | _ => none),
  .word "One" .one]

/-- Bits of a heap. -/
def HeapBit.codec : Codec HeapBit := record <| HeapBit.mk
  <$> field "source" BitSource.codec (·.source)
  <*> field "weight" (natural 32) (·.weight)
  <*> field "cycle" (natural 32) (·.cycle)
  <*> field "critical_path" delay (·.criticalPath)

/-- Fields of operands. -/
def OperandField.codec : Codec OperandField := record <| OperandField.mk
  <$> field "lo" (natural 32) (·.lo)
  <*> field "width" (natural 32) (·.width)
  <*> field "padded" (natural 32) (·.padded)
  <*> field "sign_extend" boolean (·.signExtend)

/-- Multiplication tables, whether there can be one with the parameters or
not. -/
def ProductTable.codec : Codec ProductTable := record <| ProductTable.mk
  <$> field "dx" (natural 32) (·.dx)
  <*> field "dy" (natural 32) (·.dy)
  <*> field "w_out" (natural 32) (·.wOut)
  <*> field "signed_x" boolean (·.signedX)
  <*> field "signed_y" boolean (·.signedY)

/-- Blocks of a cascade, which have no names for their parts. -/
def CascadeTerm.codec : Codec CascadeTerm := tuple <| CascadeTerm.mk
  <$> field "x" OperandField.codec (·.x)
  <*> field "y" OperandField.codec (·.y)
  <*> field "shift" (natural 32) (·.shift)

/-- Partial products. -/
def PartialProduct.codec : Codec PartialProduct := choice [
  .holding "AndRow" (namedRecord (field "row" (natural 32) id)) .row
    (fun | .row i => some i
         | _ => none),
  .holding "Table"
    (namedRecord <| (fun t x y => (t, x, y))
      <$> field "table" ProductTable.codec (·.1)
      <*> field "x" OperandField.codec (·.2.1)
      <*> field "y" OperandField.codec (·.2.2))
    (fun (t, x, y) => .table t x y)
    (fun | .table t x y => some (t, x, y)
         | _ => none),
  .holding "Product"
    (namedRecord <| (fun x y signed => (x, y, signed))
      <$> field "x" OperandField.codec (·.1)
      <*> field "y" OperandField.codec (·.2.1)
      <*> field "signed" boolean (·.2.2))
    (fun (x, y, signed) => .block x y signed)
    (fun | .block x y signed => some (x, y, signed)
         | _ => none),
  .holding "Cascade" (namedRecord (field "terms" (listOf CascadeTerm.codec) id)) .cascade
    (fun | .cascade terms => some terms
         | _ => none)]

end Datapath
