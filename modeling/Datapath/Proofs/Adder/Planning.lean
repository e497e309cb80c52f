/-
Every addition can be planned.

* `ChunkPlan.make_of_positive`: with time to spend there is a plan, if the
  target has a size for chunks.
* `Target.AgreesBelow`: two targets that answer alike for all widths below a
  bound.
* `laterSizes_congr`, `ChunkPlan.make_congr`: a plan only depends on the answers
  for widths up to twice its own.
* `plan_of_every_width`: the plan of a width partitions it, and the planner asks
  for nothing beyond 32 bits. Without bits or without time there is none.
-/
import Datapath.Proofs.Adder.Carries
import Datapath.Proofs.Adder.Order
import Datapath.Proofs.Floats
import Datapath.Target.Affine

namespace Datapath

variable {t t' : Target} {width bound : ℕ} {budget : Float}

/-- A positive number of seconds passes the check of a budget. -/
lemma budget_of_pos (h : 0.0 < budget) : ¬ (budget.isNaN = true ∨ budget ≤ 0.0) := by
  obtain ⟨p, q, hzero, hplace, hlt⟩ := float_lt_iff.mp h
  rintro (hnan | hle)
  · rw [place_of_isNaN hnan] at hplace
    cases hplace
  · obtain ⟨q', p', hplace', hzero', hle⟩ := float_le_iff.mp hle
    cases hplace.symm.trans hplace'
    cases hzero.symm.trans hzero'
    exact absurd hlt hle.not_gt

namespace ChunkPlan

/-- Sizes that make up a width make a plan of it. -/
lemma ofSizes_of_fills {sizes : List ℕ} (h : FillsWidth width sizes) (phase : PlanPhase) :
    ∃ p, ofSizes width sizes phase = .ok p := by
  rw [ofSizes]
  exact ⟨_, if_pos h⟩

/-- With time to spend there is a plan, if the target has a size for chunks. -/
lemma make_of_positive (hwidth : 0 < width) (hword : width ≤ 2 ^ 31) (hbudget : 0.0 < budget)
    (hchunk : 0 < t.chunk width) : ∃ p, make t width budget = .ok p := by
  rw [make, if_neg hwidth.ne', if_neg (budget_of_pos hbudget)]
  dsimp only
  split_ifs with hsingle hdouble hcollapsed
  · exact ofSizes_of_fills (.singleton hwidth) _
  · exact ofSizes_of_fills ((FillsWidth.singleton (by omega)).cons hchunk (by omega)) _
  · exact ofSizes_of_fills (uniformSizes_fills _ hwidth) _
  · have hbase : 2 * t.chunk width < 2 ^ 32 := by omega
    rw [wrap32_of_lt hbase] at hdouble
    exact ofSizes_of_fills (variableSizes_fills _ hchunk hbase (by omega)) _

end ChunkPlan

/-! ### What a plan depends on -/

/-- Both targets have the same clock and answer alike for all widths below a
bound. -/
structure Target.AgreesBelow (t t' : Target) (bound : ℕ) : Prop where
  options : t'.options = t.options
  adderDelay : ∀ w < bound, t'.adderDelay w = t.adderDelay w
  chunkAfter : ∀ w < bound, ∀ spent, t'.chunkAfter w spent = t.chunkAfter w spent

namespace Target.AgreesBelow

lemma pipelined (h : t.AgreesBelow t' bound) : t'.pipelined = t.pipelined :=
  congrArg TargetOptions.pipelined h.options

lemma period (h : t.AgreesBelow t' bound) : t'.period = t.period :=
  congrArg (fun o => o.frequency.period) h.options

end Target.AgreesBelow

/-- A chunk makes the carry addition two bits longer and takes one bit at least
from the remaining width, so the bound lasts for the chunks after it. -/
lemma laterSizes_congr (h : t.AgreesBelow t' bound) (slack : Float)
    {remaining previous propagation : ℕ} (hbound : propagation + 2 * remaining < bound) :
    laterSizes t' budget slack remaining previous propagation =
      laterSizes t budget slack remaining previous propagation := by
  fun_induction laterSizes t budget slack remaining previous propagation with
  | case1 => rw [laterSizes, if_pos rfl]
  | case2 remaining previous propagation hpos carryDelay left hlast =>
    rw [laterSizes, if_neg hpos, h.adderDelay _ (by omega), h.adderDelay _ (by omega), if_pos hlast]
  | case3 remaining previous propagation hpos carryDelay left hlast size rest collapsed hrest ih =>
    have hnext : propagation + 2 + 2 * (remaining - size) < bound := by omega
    rw [laterSizes, if_neg hpos, h.adderDelay _ (by omega), h.adderDelay _ (by omega), if_neg hlast,
      h.chunkAfter _ (by omega)]
    dsimp only
    rw [ih hnext, hrest]

/-- A plan only depends on the answers for widths up to twice its own. -/
lemma ChunkPlan.make_congr (h : t.AgreesBelow t' bound) (hbound : 2 * width < bound) :
    make t' width budget = make t width budget := by
  have hchunk : t'.chunk width = t.chunk width := h.chunkAfter width (by omega) 0.0
  have hsizes (base : ℕ) : variableSizes t' width base budget =
      variableSizes t width base budget := by
    rw [variableSizes, variableSizes, h.period, laterSizes_congr h _ (by omega)]
  rw [make, make, hchunk, h.pipelined]
  simp only [hsizes]

/-- **There is a plan for every width.** An addition without bits has none, and
no addition has one without time. With time to spend, on a target that has a
size for chunks, there is one for every width of at most 31 bits: its chunks are
not empty, lie side by side from the lowest bit on, and make up the width. It is
the same on a target that differs for wider questions than those of 32 bits. -/
theorem plan_of_every_width (t : Target) (width : ℕ) (budget : Float) :
    (width = 0 → ChunkPlan.make t width budget = .error (.configuration .emptyAdder)) ∧
    (1 ≤ width → budget.isNaN = true ∨ budget ≤ 0.0 →
      ChunkPlan.make t width budget = .error (.configuration (.budgetNotPositive budget))) ∧
    (1 ≤ width → width ≤ 2 ^ 31 - 1 → 0.0 < budget → 1 ≤ t.chunk width →
      ∃ p, ChunkPlan.make t width budget = .ok p ∧ p.Partition ∧ p.width = width ∧
        ∀ t', t.AgreesBelow t' (2 ^ 32) → ChunkPlan.make t' width budget = .ok p) := by
  refine ⟨fun hzero => ?_, fun hpos hbudget => ?_, fun hpos hword hbudget hchunk => ?_⟩
  · rw [ChunkPlan.make, if_pos hzero]
  · rw [ChunkPlan.make, if_neg (by omega), if_pos hbudget]
  · obtain ⟨p, hp⟩ := ChunkPlan.make_of_positive hpos (by omega) hbudget hchunk
    obtain ⟨hpartition, hwidth⟩ := ChunkPlan.partition_of_make hp
    refine ⟨p, hp, hpartition, hwidth, fun t' h => ?_⟩
    rw [ChunkPlan.make_congr h (by omega), hp]

/-- A target with registers, on which later chunks collapse. -/
def collapsing : Target := AffineDelays.standard.model ⟨Frequency.ofMHz 400.0, true, true⟩

theorem plan_of_every_width_collapsing :
    ChunkPlan.make collapsing 0 1.0 = .error (.configuration .emptyAdder) ∧
    ChunkPlan.make collapsing 64 0.0 = .error (.configuration (.budgetNotPositive 0.0)) ∧
    1 ≤ 64 ∧ 64 ≤ 2 ^ 31 - 1 ∧ (0.0 : Float) < 1.0e-9 ∧ 1 ≤ collapsing.chunk 64 ∧
      ∃ p, ChunkPlan.make collapsing 64 1.0e-9 = .ok p ∧ p.Partition ∧ p.width = 64 := by
  have hchunk : 1 ≤ collapsing.chunk 64 := by decide +kernel
  have hbudget : (0.0 : Float) < 1.0e-9 := by decide +kernel
  have hnone : (0.0 : Float) ≤ 0.0 := by decide +kernel
  obtain ⟨p, hp, hpartition, hwidth, -⟩ :=
    (plan_of_every_width collapsing 64 1.0e-9).2.2 (by decide) (by decide) hbudget hchunk
  exact ⟨(plan_of_every_width collapsing 0 1.0).1 rfl,
    (plan_of_every_width collapsing 64 0.0).2.1 (by decide) (.inr hnone),
    by decide, by decide, hbudget, hchunk, p, hp, hpartition, hwidth⟩

end Datapath
