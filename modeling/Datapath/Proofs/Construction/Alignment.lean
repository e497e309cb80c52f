/-
The cycles in which instances read their inputs.

* `Component.Fed`: every instance of a component reads all its inputs in one
  cycle, its own or, if it may start late, the one before.
* `fed_of_construct`: so it is in what a run of steps constructs.
* `inputs_read_together`: adders, multipliers and shifters are fed, and which of
  their elements may start late; `adder_reads_ahead` is an adder that starts one
  cycle after its inputs are read.
-/
import Datapath.Proofs.Adder.Sum
import Datapath.Proofs.Construction.Operators

namespace Datapath

/-- Every instance of a component reads all its inputs in one cycle, its own
or, if it may start late, the one before. -/
def Component.Fed (c : Component) (pipelined : Bool) (late : String → Prop) : Prop :=
  ∀ i ∈ c.instances, i.Fed c.signals pipelined late

/-- Without registers nothing starts late. -/
lemma Component.Fed.of_unpipelined {c : Component} {late : String → Prop}
    (h : c.Fed false fun _ => True) : c.Fed false late := by
  intro i hi
  obtain ⟨n, hports, hcycle | ⟨hpipelined, -⟩⟩ := h i hi
  · exact ⟨n, hports, .inl hcycle⟩
  · cases hpipelined

/-- What a run of steps constructs has all its instances fed. -/
lemma fed_of_construct {α : Type} {steps : Build α} {name : String} {t : Target} {a : α}
    {built : BuiltOperator} {late : String → Prop}
    (hrun : ∀ b', steps (Builder.forTarget name t) = .ok a b' →
      Builder.Run late (Builder.forTarget name t) b')
    (h : (Builder.forTarget name t).construct steps = .ok (a, built)) :
    built.component.Fed t.pipelined late := by
  obtain ⟨b, hsteps, rfl⟩ := construct_eq_ok h
  have hstart : (Builder.forTarget name t).Fed late := by
    intro i hi
    exact absurd hi (Array.not_mem_empty i)
  have hfed := (hrun b hsteps).fed hstart
  have hclock := (hrun b hsteps).sameClock.pipelined
  intro i hi
  have hone := hfed i hi
  rwa [hclock] at hone

/-- A wide adder is fed. -/
lemma LongAdder.fed_of_build {t : Target} {width : ℕ} {a : LongAdder} {built : BuiltOperator}
    (h : LongAdder.build t width = .ok (a, built)) :
    built.component.Fed t.pipelined a.plan.Late := by
  rw [LongAdder.build] at h
  split at h
  case isTrue => cases h
  case isFalse =>
    obtain ⟨⟨plan, operator⟩, hconstruct, hpure⟩ := except_bind_eq_ok.mp h
    cases hpure
    cases hpipelined : t.pipelined with
    | true =>
      rw [← hpipelined]
      exact fed_of_construct (fun b' hsteps => LongAdder.steps_run hpipelined rfl hsteps) hconstruct
    | false =>
      refine .of_unpipelined ?_
      rw [← hpipelined]
      have hrun := @LongAdder.steps_run_of_late (fun _ => True) t width fun _ => trivial
      exact fed_of_construct (fun b' hsteps => hrun hsteps) hconstruct

/-- A multiplier is fed. -/
lemma Multiplier.fed_of_build [Tiling.Surroundings] {t : Target} {wx wy wOut : ℕ} {signed : Bool}
    {options : MultiplierOptions} {m : Multiplier} {built : BuiltOperator}
    (h : Multiplier.build t wx wy wOut signed options = .ok (m, built)) :
    built.component.Fed t.pipelined m.plan.architecture.Late := by
  obtain ⟨p, -, hconstruct⟩ := except_bind_eq_ok.mp h
  exact fed_of_construct (fun b' hsteps => MultiplierPlan.steps_run rfl hsteps) hconstruct

/-- A shifter is fed. -/
lemma Shifter.fed_of_build {t : Target} {wIn maxShift : ℕ} {direction : ShiftDirection}
    {s : Shifter} {built : BuiltOperator} {late : String → Prop}
    (h : Shifter.build t wIn maxShift direction = .ok (s, built)) :
    built.component.Fed t.pipelined late := by
  rw [Shifter.build] at h
  dsimp only at h
  split_ifs at h
  obtain ⟨⟨_, operator⟩, hconstruct, hpure⟩ := except_bind_eq_ok.mp h
  cases hpure
  exact fed_of_construct (fun b' hsteps => Shifter.steps_run hsteps) hconstruct

/-! ### All instances -/

/-- **Instances read their inputs together.** In every adder, multiplier and
shifter, whatever the target, all signals connected to an instance are read in
one cycle: the cycle in which a signal is produced and the registers behind it
add up to the same number. This is the cycle of the instance, except that on a
target with registers some elements may start one cycle later: the adders of a
wide adder if its plan is strained, the adder behind a heap, and the adders of
blocks. -/
theorem inputs_read_together [Tiling.Surroundings] (t : Target) :
    (∀ width a built, LongAdder.build t width = .ok (a, built) →
      built.component.Fed t.pipelined a.plan.Late) ∧
    (∀ wx wy wOut signed options m built,
      Multiplier.build t wx wy wOut signed options = .ok (m, built) →
        built.component.Fed t.pipelined m.plan.architecture.Late) ∧
    (∀ wIn maxShift direction s built,
      Shifter.build t wIn maxShift direction = .ok (s, built) →
        built.component.Fed t.pipelined fun _ => False) :=
  ⟨fun _ _ _ h => LongAdder.fed_of_build h, fun _ _ _ _ _ _ _ h => Multiplier.fed_of_build h,
    fun _ _ _ _ _ h => Shifter.fed_of_build h⟩

/-- A target on which a row of partial products and an adder do not fit in one
period. -/
def squeezed : Target :=
  { AffineDelays.standard with
    lutInputs := 1
    lut := 0.5
    wire := 0.0
    adder := 0.75
    adderPerBit := 0.0
    register := 0.0
    hasBlocks := false
    block := 1.0 : AffineDelays }.model ⟨⟨1.0⟩, true, true⟩

open Runs MultiplierRuns in
/-- The adder of a small multiplier starts one cycle after its inputs are
read. -/
lemma Multiplier.build_squeezed :
    ∃ m built, Multiplier.build squeezed 2 2 0 false .standard = .ok (m, built) ∧
      (∃ i ∈ built.component.instances, i.cycle = 1 ∧
        .signal "X" ⟨4, "bh1_row0", 0⟩ ∈ i.ports) ∧
      ∃ g, built.component.signals[4]? = some g ∧ g.cycle = 0 := by
  have hlut : ¬ 2 + 2 ≤ squeezed.lutInputs + 2 := by decide
  have hpipelined : squeezed.pipelined = true := rfl
  have hperiod : squeezed.period = 1.0 := by decide +kernel
  -- the rows fit in the first cycle
  have hrow : squeezed.wireDelay 2 + squeezed.lutDelay = (0.5 : Delay) := by decide +kernel
  have hrowFits : ¬ Delay.seconds 0.5 > (1.0 : Float) := by decide +kernel
  have hrowLeaves : ¬ Delay.seconds 0.5 ≥ (1.0 : Float) := by decide +kernel
  have hafterRow : (0.0 : Delay) + 0.5 = 0.5 := by decide +kernel
  -- the adder fits in a cycle of its own, but not behind the rows
  have hplan : ChunkPlan.make squeezed 4 (1.0 - Delay.seconds 0.5) =
      .ok ⟨4, layChunks 0 [4], .single, 0, 0⟩ := rfl
  have hadder : squeezed.adderDelay 4 = (0.75 : Delay) := by decide +kernel
  have hadderFits : ¬ Delay.seconds 0.75 > (1.0 : Float) := by decide +kernel
  have hafterAdder : (0.5 : Delay) + 0.75 = 1.25 := by decide +kernel
  have hadderLate : Delay.seconds 1.25 > (1.0 : Float) := by decide +kernel
  have hzero : Nat.repr 0 = "0" := rfl
  have hone : Nat.repr 1 = "1" := rfl
  have htwo : Nat.repr 2 = "2" := rfl
  simp [Site.addRows, Site.addRowsFrom, Site.addRow, Delay.greater, Builder.finish,
    Builder.finishWith, hlut, hpipelined, hperiod, hrow, hrowFits, hrowLeaves, hafterRow, hplan,
    hadder, hadderFits, hafterAdder, hadderLate, hzero, hone, htwo]

open Runs in
/-- A small shifter can be built. -/
lemma Shifter.build_unclocked : ∃ s built, Shifter.build unclocked 1 1 .left = .ok (s, built) := by
  have hpipelined : unclocked.pipelined = false := rfl
  have hone : Nat.repr 1 = "1" := rfl
  have hlog : Nat.log2 1 = 0 := by decide
  simp [Shifter.build, Shifter.steps, Shifter.buildLevels, Shifter.wShift, Shifter.maxAmountBits,
    bitLength, hpipelined, hone, hlog]

theorem inputs_read_together_small :
    (∃ a built, LongAdder.build unclocked 3 = .ok (a, built) ∧
      built.component.Fed unclocked.pipelined a.plan.Late) ∧
    (∃ m built, Multiplier.build squeezed 2 2 0 false .standard = .ok (m, built) ∧
      built.component.Fed squeezed.pipelined m.plan.architecture.Late) ∧
    ∃ s built, Shifter.build unclocked 1 1 .left = .ok (s, built) ∧
      built.component.Fed unclocked.pipelined fun _ => False := by
  obtain ⟨hadder, -, hshifter⟩ := inputs_read_together unclocked
  obtain ⟨-, hmultiplier, -⟩ := inputs_read_together squeezed
  obtain ⟨a, builtAdder, ha⟩ := LongAdder.build_unclocked
  obtain ⟨m, builtMultiplier, hm, -⟩ := Multiplier.build_squeezed
  obtain ⟨s, builtShifter, hs⟩ := Shifter.build_unclocked
  exact ⟨⟨a, builtAdder, ha, hadder _ _ _ ha⟩,
    ⟨m, builtMultiplier, hm, hmultiplier _ _ _ _ _ _ _ hm⟩,
    s, builtShifter, hs, hshifter _ _ _ _ _ hs⟩

theorem adder_reads_ahead :
    ∃ m built, Multiplier.build squeezed 2 2 0 false .standard = .ok (m, built) ∧
      ∃ i ∈ built.component.instances, ∃ formal use g, .signal formal use ∈ i.ports ∧
        built.component.signals[use.signal]? = some g ∧ g.cycle + use.delay ≠ i.cycle := by
  obtain ⟨m, built, hbuild, ⟨i, hi, hcycle, hport⟩, g, hg, hproduced⟩ := Multiplier.build_squeezed
  refine ⟨m, built, hbuild, i, hi, _, _, g, hport, hg, ?_⟩
  rw [hproduced, hcycle]
  decide

end Datapath
