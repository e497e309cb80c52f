/-
The sum of an adder that was built.

* `plan_of_carrySelect`: an addition in hardware is laid out by a plan that was
  made for its width.
* `sum_of_plan_and_adder`: every plan whose chunks partition its width adds,
  the plans that are made do, and what a wide adder puts out is the sum that
  it stands for.
-/
import Datapath.Proofs.Adder.Carries
import Datapath.Proofs.Runs
import Datapath.Proofs.Steps
import Datapath.Target.Affine

namespace Datapath

/-- The plan of an addition in hardware was made for its width. -/
lemma plan_of_carrySelect {t : Target} {x y : SignalId} {cin : Option SignalId} {width : ℕ}
    {b b' : Builder} {sum : CarrySelect} (h : carrySelect t x y cin width b = .ok sum b') :
    ∃ budget, ChunkPlan.make t width budget = .ok sum.plan := by
  obtain ⟨budget, b₁, -, h⟩ := bind_eq_ok.mp h
  obtain ⟨plan, b₂, hplan, h⟩ := bind_eq_ok.mp h
  obtain ⟨hmake, rfl⟩ := ofExcept_eq_ok.mp hplan
  obtain ⟨_, b₃, -, h⟩ := bind_eq_ok.mp h
  refine ⟨budget, ?_⟩
  rw [hmake]
  cases hphase : plan.phase <;> cases hchunks : plan.chunks
  all_goals
    rw [hphase, hchunks] at h
    obtain ⟨_, b₄, -, h⟩ := bind_eq_ok.mp h
    obtain ⟨rfl, -⟩ := pure_eq_ok.mp h
    rfl

/-- The plan of a wide adder was made for its width. -/
lemma plan_of_build {t : Target} {width : ℕ} {a : LongAdder} {built : BuiltOperator}
    (h : LongAdder.build t width = .ok (a, built)) :
    0 < width ∧ a.width = width ∧ ∃ budget, ChunkPlan.make t width budget = .ok a.plan := by
  rw [LongAdder.build] at h
  split_ifs at h with hzero
  obtain ⟨⟨plan, operator⟩, hconstruct, hpure⟩ := except_bind_eq_ok.mp h
  cases hpure
  obtain ⟨b', hsteps, -⟩ := construct_eq_ok hconstruct
  obtain ⟨x0, b₁, -, hsteps⟩ := bind_eq_ok.mp hsteps
  obtain ⟨x1, b₂, -, hsteps⟩ := bind_eq_ok.mp hsteps
  obtain ⟨cin, b₃, -, hsteps⟩ := bind_eq_ok.mp hsteps
  obtain ⟨sum, b₄, hsum, hsteps⟩ := bind_eq_ok.mp hsteps
  obtain ⟨_, b₅, -, hsteps⟩ := bind_eq_ok.mp hsteps
  obtain ⟨hplan, -⟩ := pure_eq_ok.mp hsteps
  exact ⟨Nat.pos_of_ne_zero hzero, rfl, hplan ▸ plan_of_carrySelect hsum⟩

/-- **Carry-select addition is addition.** A plan whose chunks are not empty,
lie side by side and make up its width computes the sum modulo its width, for
all numbers and both carries. The plans that are made for a target are of this
kind, and so a wide adder puts out the sum that it stands for. -/
theorem sum_of_plan_and_adder :
    (∀ p : ChunkPlan, p.Partition → 1 ≤ p.width → p.width ≤ wordBits → ∀ x y cin,
      p.simulate x y cin = .ok ((x + y + cin.toNat) % 2 ^ p.width)) ∧
    (∀ t width budget p, ChunkPlan.make t width budget = .ok p →
      p.Partition ∧ p.width = width ∧ (width ≤ wordBits → ∀ x y cin,
        p.simulate x y cin = .ok ((x + y + cin.toNat) % 2 ^ width))) ∧
    (∀ t width a built, LongAdder.build t width = .ok (a, built) → width ≤ wordBits →
      ∀ x y cin, a.evaluate x y cin = .ok (a.emulate x y cin)) := by
  have hmade : ∀ t width budget p, ChunkPlan.make t width budget = .ok p →
      p.Partition ∧ p.width = width ∧ (width ≤ wordBits → ∀ x y cin,
        p.simulate x y cin = .ok ((x + y + cin.toNat) % 2 ^ width)) := by
    intro t width budget p h
    obtain ⟨hplan, hwidth⟩ := ChunkPlan.partition_of_make h
    refine ⟨hplan, hwidth, fun hword x y cin => ?_⟩
    have hpos := ChunkPlan.width_pos_of_make h
    rw [ChunkPlan.simulate_eq hplan (by omega) (by omega), hwidth]
  refine ⟨fun p hplan hpos hword x y cin => ChunkPlan.simulate_eq hplan hpos hword x y cin,
    hmade, ?_⟩
  intro t width a built h hword x y cin
  obtain ⟨hpos, rfl, budget, hmake⟩ := plan_of_build h
  obtain ⟨-, -, hsum⟩ := hmade _ _ _ _ hmake
  rw [LongAdder.evaluate, LongAdder.emulate, hsum hword, ← truncateTo_eq hword]

/-- A target without registers, on which every addition is one chunk. -/
def unclocked : Target := AffineDelays.standard.model ⟨Frequency.ofMHz 400.0, false, true⟩

/-- A plan of three chunks of different sizes. -/
def threeChunks : ChunkPlan where
  width := 9
  chunks := layChunks 0 [2, 4, 3]
  phase := .variable
  carryStage := 1
  selectStage := 1

lemma threeChunks_partition : threeChunks.Partition := by
  refine ⟨?_, contiguous_layChunks 0 _, rfl⟩
  decide

open Runs in
/-- A small adder can be built. -/
lemma LongAdder.build_unclocked : ∃ a built, LongAdder.build unclocked 3 = .ok (a, built) := by
  have hplan : ChunkPlan.make unclocked 3 unclocked.period =
      .ok ⟨3, layChunks 0 [3], .single, 0, 0⟩ := rfl
  have hpipelined : unclocked.pipelined = false := rfl
  have hzero : Nat.repr 0 = "0" := rfl
  simp [LongAdder.build, LongAdder.steps, carrySelect, awaitOperands, Addition.ripple,
    CarryIn.bind, hplan, hpipelined, hzero]

theorem sum_of_plan_and_adder_unclocked :
    (threeChunks.Partition ∧ 1 ≤ threeChunks.width ∧ threeChunks.width ≤ wordBits ∧
      threeChunks.simulate 300 211 true = .ok 0) ∧
    (∃ p, ChunkPlan.make unclocked 70 unclocked.period = .ok p ∧ 70 ≤ wordBits ∧
      p.simulate (2 ^ 70 - 1) 2 false = .ok 1) ∧
    ∃ a built, LongAdder.build unclocked 3 = .ok (a, built) ∧ 3 ≤ wordBits ∧
      a.evaluate 5 6 true = .ok (a.emulate 5 6 true) := by
  obtain ⟨hpartition, hmade, hbuilt⟩ := sum_of_plan_and_adder
  obtain ⟨a, built, hbuild⟩ := LongAdder.build_unclocked
  have hmake : ChunkPlan.make unclocked 70 unclocked.period =
      .ok ⟨70, layChunks 0 [70], .single, 0, 0⟩ := rfl
  obtain ⟨-, -, hsum⟩ := hmade _ _ _ _ hmake
  refine ⟨⟨threeChunks_partition, by decide, by decide, ?_⟩, ⟨_, hmake, by decide, ?_⟩,
    a, built, hbuild, by decide, ?_⟩
  · exact hpartition threeChunks threeChunks_partition (by decide) (by decide) 300 211 true
  · exact hsum (by decide) (2 ^ 70 - 1) 2 false
  · exact hbuilt unclocked 3 a built hbuild (by decide) 5 6 true

end Datapath
