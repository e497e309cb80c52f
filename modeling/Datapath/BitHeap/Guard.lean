/-
Guard bits of truncated products.

* `guardBits`: the number of columns kept below the output. Columns are
  dropped from the lowest one on while the error that this causes stays small
  enough for the columns that are left.
-/
import Datapath.Bits

namespace Datapath

/-- The number, or the greatest word if it does not fit in one. -/
def saturate (n : Nat) : Nat := min n (lowMask wordBits)

/-- The number of columns to drop, `i` of them being dropped already at the
cost of `error`. Column `i` of a product holds at most `i + 1` bits, and
`dropped` columns lie below the output. -/
def droppedColumns (dropped i error : Nat) : Nat :=
  if bitLength error < dropped ∧ i < dropped then
    droppedColumns dropped (i + 1) (saturate (error + ((i + 2) <<< min (i + 1) wordBits)))
  else i
termination_by dropped - i

/-- The number of columns that a product of `wx` by `wy` bits keeps below an
output of `wOut` bits. A full product keeps none. -/
def guardBits (wx wy wOut : Nat) : Nat :=
  let full := wrap32 (wx + wy)
  if full ≤ wOut then 0 else full - droppedColumns (full - wOut) 0 1 - wOut

end Datapath
