/-
The values of partial products.

* `OperandField`: some bits of an operand, extended to a greater width.
* `PartialProduct`: how the value of a partial product follows from the
  operands.
* `PartialProduct.value`: that value.
* `ProductModel`: the partial products of one multiplication by signal. Its
  first operand is the wider one, so the operands may have been exchanged.
-/
import Datapath.Product.Table
import Std.Data.HashMap

namespace Datapath

/-- Bits `lo` to `lo + width` of an operand, extended to `padded` bits. -/
structure OperandField where
  lo : Nat
  width : Nat
  padded : Nat
  /-- The extension repeats the top bit. -/
  signExtend : Bool
  deriving DecidableEq, Repr, Inhabited

namespace OperandField

/-- The bits as they are. -/
def plain (lo width : Nat) : OperandField := { lo, width, padded := width, signExtend := false }

/-- The field of an operand, which is one word. -/
def value (f : OperandField) (operand : Nat) : Nat :=
  let bits := if f.lo < wordBits then truncateTo f.width (operand >>> f.lo) else 0
  if f.signExtend ∧ 0 < f.width ∧ bitAt bits (f.width - 1) = 1 then
    bits + (lowMask f.padded - lowMask f.width)
  else bits

end OperandField

/-- One block of a cascade: the product of two fields, `shift` bits up. -/
structure CascadeTerm where
  x : OperandField
  y : OperandField
  shift : Nat
  deriving DecidableEq, Repr, Inhabited

/-- The value of a term in one word. Shifts go around the word. -/
def CascadeTerm.value (t : CascadeTerm) (x y : Nat) : Nat :=
  wrap ((t.x.value x * t.y.value y) <<< (t.shift % wordBits))

/-- How the value of a partial product follows from the operands. -/
inductive PartialProduct where
  /-- The first operand, if bit `row` of the second is set. -/
  | row (row : Nat)
  /-- A table entry for two fields. -/
  | table (table : ProductTable) (x y : OperandField)
  /-- The product of two fields by a hard multiplier block. -/
  | block (x y : OperandField) (signed : Bool)
  /-- The sum of the products of a cascade of blocks. -/
  | cascade (terms : List CascadeTerm)
  deriving DecidableEq, Repr, Inhabited

/-- The value of a partial product, for the operands in its own order. -/
def PartialProduct.value (p : PartialProduct) (x y : Nat) : Nat :=
  match p with
  | row i => if wordBit y i = 1 then x else 0
  | table t fx fy => t.entry (wrap (fy.value y <<< t.dx) ||| fx.value x)
  | block fx fy signed =>
    if signed then
      truncateInt (fx.padded + fy.padded)
        (wrapSigned (signedValue fx.padded (fx.value x) * signedValue fy.padded (fy.value y)))
    else wrap (fx.value x * fy.value y)
  | cascade terms => terms.foldl (fun sum t => wrap (sum + t.value x y)) 0

/-- The partial products of one multiplication. -/
structure ProductModel where
  /-- The width of the first operand, which is not narrower than the
  second. -/
  wx : Nat
  wy : Nat
  /-- The operands have signs. -/
  signed : Bool
  /-- The operands were exchanged. -/
  swapped : Bool
  parts : Std.HashMap SignalId PartialProduct
  deriving Inhabited

namespace ProductModel

/-- No partial products of operands of these widths. -/
def forWidths (wx wy : Nat) (signed : Bool) : ProductModel :=
  let swapped := decide (wx < wy)
  { wx := max wx wy, wy := min wx wy, signed, swapped, parts := ∅ }

/-- The number of partial products. -/
def size (m : ProductModel) : Nat := m.parts.size

/-- There are no partial products. -/
def isEmpty (m : ProductModel) : Bool := m.parts.isEmpty

/-- The signals of two operands, the first one first. -/
def order {α : Type} (m : ProductModel) (x y : α) : α × α := if m.swapped then (y, x) else (x, y)

/-- The operands at their widths, the first one first. -/
def operands (m : ProductModel) (x y : Nat) : Nat × Nat :=
  let (a, b) := m.order x y
  (truncateTo m.wx a, truncateTo m.wy b)

/-- The value of a partial product for two operands, if the signal is one. -/
def value? (m : ProductModel) (id : SignalId) (x y : Nat) : Option Nat :=
  let (a, b) := m.operands x y
  m.parts[id]?.map (·.value a b)

/-- The model with one more partial product. -/
def insert (m : ProductModel) (id : SignalId) (p : PartialProduct) : ProductModel :=
  { m with parts := m.parts.insert id p }

end ProductModel

end Datapath
