/-
Small multipliers, run by `simp`.

* `MultiplierRuns`: a simp set with the equations of a multiplier, of the heap
  that its partial products go into, and of the compression of the heap. Together
  with `Runs` it builds a multiplier from numbers. A heap is kept as the bits that
  were put into it, so that terms stay small.
-/
import Datapath.Multiplier.Basic
import Datapath.Proofs.BitHeap.Total
import Datapath.Proofs.Runs

namespace Datapath.MultiplierRuns

section Heaps

variable {h : BitHeap} {w : ℕ} {b : HeapBit}

-- One bit more leaves the shape of a heap as it is. The proofs are not `rfl`, as
-- `simp` would not see through them where it has to bound a column.

lemma width_put : (h.put w b).width = h.width := by rw [BitHeap.put]

lemma lsbWeight_put : (h.put w b).lsbWeight = h.lsbWeight := by rw [BitHeap.put]

lemma overflow_put : (h.put w b).overflow = h.overflow := by rw [BitHeap.put]

variable {width : ℕ} {lsbWeight : ℤ} {overflow : Overflow}

/-- A new heap is empty. -/
lemma column_new :
    (BitHeap.mk width lsbWeight overflow (.replicate width #[]) (.replicate width 0)
      (by simp) (by simp)).column w = #[] := by
  simp only [BitHeap.column, Array.getD_eq_getD_getElem?, Array.getElem?_replicate]
  split_ifs <;> rfl

lemma onesAt_new :
    (BitHeap.mk width lsbWeight overflow (.replicate width #[]) (.replicate width 0)
      (by simp) (by simp)).onesAt w = 0 := by
  simp only [BitHeap.onesAt, Array.getD_eq_getD_getElem?, Array.getElem?_replicate]
  split_ifs <;> rfl

end Heaps

attribute [scoped simp] Multiplier.build MultiplierPlan.make MultiplierPlan.steps
  MultiplierPlan.buildCircuit MultiplierPlan.truncationWarning MultiplierPlan.fillHeap
  MultiplierPlan.heapWidth MultiplierPlan.full outputWidth guardBits Architecture.select
  ProductModel.forWidths ProductModel.order reportAny reportTiling Build.diagnose

attribute [scoped simp] Site.enter Site.addProduct Site.readOperands Site.addBits Site.addBit
  Contributing.build Contributing.record Contributing.heap ProductTable.make ProductTable.maxInput
  wrap32 wrapSigned64

attribute [scoped simp] Heaping.addSignalBit Heaping.signal Heaping.addBit Heaping.place
  BitHeap.make BitHeap.place width_put lsbWeight_put overflow_put column_new onesAt_new
  BitHeap.column_put_self BitHeap.column_put_of_ne BitHeap.onesAt_put

attribute [scoped simp] BitHeap.compress BitHeap.settled settleOnes List.range_succ reduceAll
  layRows HeapBit.latest HeapBit.upTo HeapBit.availability HeapBit.ready readSources declareRows
  tallest sumRows carrySelect awaitOperands Addition.ripple CarryIn.bind

end Datapath.MultiplierRuns
