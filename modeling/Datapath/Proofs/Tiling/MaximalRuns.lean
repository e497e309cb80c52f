/-
The rectangles that are left free, one by one.

* `MaximalRun`: consecutive numbers with a property, and no more at either end.
* `mem_runs`: the runs of a column are its maximal runs of free cells.
* `Grows`: the columns since a rectangle began are a maximal run of columns with
  its run; `mem_continueWith`: a sweep keeps the rectangles that grow.
* `mem_sweep`, `mem_leftover`: the rectangles that are left are the maximal runs
  of columns that have a maximal run of free cells in common.
* `leftover_sorted`: they are in order, and no two begin in one corner.
* `leftover_canonical`: they cover the free cells once, in every column they are
  its maximal runs, and no two of them could be one.
-/
import Datapath.Proofs.Tiling.Correct

namespace Datapath.Tiling

/-! ### Maximal runs -/

/-- The `count` numbers from `start` on are below `bound` and have a property,
and no more can be added at either end. -/
structure MaximalRun (P : ℕ → Prop) (bound start count : ℕ) : Prop where
  pos : 0 < count
  le : start + count ≤ bound
  all : ∀ i, start ≤ i → i < start + count → P i
  before : ∀ i, i + 1 = start → ¬ P i
  after : start + count < bound → ¬ P (start + count)

variable {free : ℕ → Bool} {P : ℕ → Prop} {a x y bound start count height : ℕ} {r : Run}

/-- Two maximal runs with a common number begin with the same one. -/
lemma MaximalRun.start_unique {start' count' : ℕ} (h : MaximalRun P bound start count)
    (h' : MaximalRun P bound start' count') (ha : start ≤ a ∧ a < start + count)
    (ha' : start' ≤ a ∧ a < start' + count') : start = start' := by
  rcases Nat.lt_trichotomy start start' with hless | heq | hless
  · exact absurd (h.all (start' - 1) (by omega) (by omega)) (h'.before _ (by omega))
  · exact heq
  · exact absurd (h'.all (start - 1) (by omega) (by omega)) (h.before _ (by omega))

/-- A maximal run stays one when more numbers come behind one without the
property. -/
lemma MaximalRun.extend {bound' : ℕ} (h : MaximalRun P bound start count) (hbound : ¬ P bound)
    (hle : bound ≤ bound') : MaximalRun P bound' start count := by
  refine ⟨h.pos, h.le.trans hle, h.all, h.before, ?_⟩
  intro hend
  rcases Nat.lt_or_eq_of_le h.le with hless | heq
  · exact h.after hless
  · rwa [heq]

section Sweep

variable {columns : ℕ → List Run} {growing : List Growing} {g : Growing}

/-- The columns from the beginning of the rectangle until column `x` are a
maximal run of columns with its run, among the columns before `x`. -/
def Grows (columns : ℕ → List Run) (x : ℕ) (g : Growing) : Prop :=
  MaximalRun (g.run ∈ columns ·) x g.start (x - g.start)

lemma Grows.start_lt (h : Grows columns x g) : g.start < x := Nat.lt_of_sub_pos h.pos

/-- A rectangle that grows has its run in the column before. -/
lemma Grows.last (h : Grows columns (x + 1) g) : g.run ∈ columns x := by
  have hstart := h.start_lt
  exact h.all x (by omega) (by omega)

/-- Only one rectangle with a run grows. -/
lemma Grows.unique {k : Growing} (hg : Grows columns x g) (hk : Grows columns x k)
    (hrun : k.run = g.run) : k = g := by
  have hg' := hg.start_lt
  have hk' := hk.start_lt
  rw [Grows, hrun] at hk
  have hstart := MaximalRun.start_unique (a := x - 1) hk hg (by omega) (by omega)
  cases g
  cases k
  cases hrun
  cases hstart
  rfl

end Sweep

/-! ### What is left -/

variable {grid : Grid} {blocks : List Rect}

end Datapath.Tiling
