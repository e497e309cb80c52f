/-
Operators without registers.

* `ChunkPlan.size_of_make`: on a target without registers every addition is one
  chunk.
* `BitHeap.merge_of_compress`, `MultiplierPlan.core_of_steps`: the heap behind a
  multiplier is merged by a plan that was made for the target.
* `combinational_of_builds`: on such a target nothing that is built has a
  register.
-/
import Datapath.Proofs.Construction.Built

namespace Datapath

variable {t : Target} {b b' : Builder} {o : HeapOutcome}

/-! ### Plans -/

/-- Without registers an addition is one chunk. -/
lemma ChunkPlan.size_of_make {width : ℕ} {budget : Float} {p : ChunkPlan}
    (hnone : t.pipelined = false) (h : make t width budget = .ok p) : p.size = 1 := by
  have hsingle : (!t.pipelined) = true ∨ width ≤ t.chunk width := .inl (by rw [hnone]; rfl)
  simp only [make, if_pos hsingle] at h
  split_ifs at h
  rw [ofSizes] at h
  split_ifs at h
  cases h
  rfl

/-- The plan by which the rows of a compressed heap are added was made for the
target. -/
lemma BitHeap.merge_of_compress {h : BitHeap} {p : ChunkPlan}
    (hcompress : h.compress t b = .ok o b') (hmerge : o.merge = some p) :
    ∃ budget, ChunkPlan.make t h.width budget = .ok p := by
  obtain ⟨_, b₁, -, hcompress⟩ := bind_eq_ok.mp hcompress
  obtain ⟨_, b₂, -, hcompress⟩ := bind_eq_ok.mp hcompress
  obtain ⟨rows, b₃, -, hcompress⟩ := bind_eq_ok.mp hcompress
  obtain ⟨⟨result, merge⟩, b₄, hsum, hcompress⟩ := bind_eq_ok.mp hcompress
  obtain ⟨rfl, rfl⟩ := pure_eq_ok.mp hcompress
  obtain rfl : merge = some p := hmerge
  rcases rows with _ | ⟨x, _ | ⟨y, _ | ⟨z, rows⟩⟩⟩
  case cons.cons.nil =>
    obtain ⟨plan, budget, hplan, hmake⟩ := plan_of_sumRows hsum
    cases hplan
    exact ⟨budget, hmake⟩
  -- without two rows nothing is added
  all_goals
    obtain ⟨hnone, -⟩ := pure_eq_ok.mp hsum
    cases hnone

namespace MultiplierPlan

variable {plan : MultiplierPlan} {options : MultiplierOptions} {model : ProductModel}
  {x y : SignalId}

/-- A circuit with a heap has compressed it. -/
lemma Computes.compresses [Tiling.Surroundings] {r : MultiplierCircuit}
    (h : plan.Computes t options model x y b r b') (hcore : r.core = .heap o) :
    ∃ (heap : BitHeap) (c c' : Builder), heap.compress t c = .ok o c' := by
  cases h with
  | table _ _ _ => cases hcore
  | block _ _ => cases hcore
  | heap _ _ _ hcompress =>
    cases hcore
    exact ⟨_, _, _, hcompress⟩

/-- So has a multiplier. -/
lemma core_of_steps [Tiling.Surroundings] {m : Multiplier} (h : plan.steps t options b = .ok m b')
    (hcore : m.core = .heap o) :
    ∃ (heap : BitHeap) (c c' : Builder), heap.compress t c = .ok o c' := by
  obtain ⟨circuit, _, _, _, _, _, _, _, _, _, -, -, -, -, hcircuit, -, -, rfl⟩ := steps_eq_ok h
  exact hcircuit.compresses hcore

end MultiplierPlan

/-- The plan by which a multiplier adds the rows of its heap was made for the
target. -/
lemma Multiplier.merge_of_build [Tiling.Surroundings] {wx wy wOut : ℕ} {signed : Bool}
    {options : MultiplierOptions} {m : Multiplier} {built : BuiltOperator} {p : ChunkPlan}
    (h : build t wx wy wOut signed options = .ok (m, built)) (ho : m.heapOutcome? = some o)
    (hp : o.merge = some p) : ∃ width budget, ChunkPlan.make t width budget = .ok p := by
  have hcore : m.core = .heap o := by
    rw [heapOutcome?] at ho
    split at ho <;> cases ho
    assumption
  obtain ⟨plan, -, hconstruct⟩ := except_bind_eq_ok.mp h
  obtain ⟨b, hsteps, -⟩ := construct_eq_ok hconstruct
  obtain ⟨heap, c, c', hcompress⟩ := MultiplierPlan.core_of_steps hsteps hcore
  exact ⟨heap.width, BitHeap.merge_of_compress hcompress hp⟩

/-! ### Operators -/

/-- All components of an operator have no registers if the target has none. -/
lemma Builds.combinational {built : BuiltOperator} (h : Builds t built)
    (hnone : t.pipelined = false) : ∀ c ∈ built.components, c.Combinational := by
  obtain ⟨b, hcomplete, hreplays, -, rfl⟩ := h.complete
  refine List.forall_mem_cons.mpr ⟨hcomplete.combinational hreplays hnone, fun c hc => ?_⟩
  obtain ⟨p, hb, -⟩ := hcomplete
  exact (hb.elements c (Array.mem_toList_iff.mp hc)).combinational hnone

/-- **Without registers everything is in the first cycle.** On a target without
registers, all signals and instances of an adder, a multiplier or a shifter, and
of the components that it uses, are in the first cycle. Nothing is used later,
nothing lives longer, there are no register bits, and outputs take no cycles.
Adders, and the additions behind heaps, are one chunk. -/
theorem combinational_of_builds [Tiling.Surroundings] (hnone : t.pipelined = false) :
    (∀ built, Builds t built → ∀ c ∈ built.components, c.Combinational) ∧
    (∀ width a built, LongAdder.build t width = .ok (a, built) →
      a.latency = 0 ∧ a.plan.size = 1) ∧
    ∀ wx wy wOut signed options m built,
      Multiplier.build t wx wy wOut signed options = .ok (m, built) →
        ∀ o, m.heapOutcome? = some o → ∀ p ∈ o.merge, p.size = 1 := by
  refine ⟨fun built h => h.combinational hnone, fun width a built h => ⟨?_, ?_⟩,
    fun wx wy wOut signed options m built h o ho p hp => ?_⟩
  · have hlatency : a.latency = built.component.latency := by
      rw [LongAdder.build] at h
      split_ifs at h
      obtain ⟨_, -, hpure⟩ := except_bind_eq_ok.mp h
      cases hpure
      rfl
    rw [hlatency]
    exact ((Builds.adder h).combinational hnone _ List.mem_cons_self).latency
  · obtain ⟨-, -, budget, hmake⟩ := plan_of_build h
    exact ChunkPlan.size_of_make hnone hmake
  · obtain ⟨width, budget, hmake⟩ := Multiplier.merge_of_build h ho hp
    exact ChunkPlan.size_of_make hnone hmake

/-- A target without registers on which no product fits a table. -/
def gateOnly : Target :=
  { AffineDelays.standard with lutInputs := 1 : AffineDelays }.model
    ⟨Frequency.ofMHz 400.0, false, true⟩

open Runs MultiplierRuns in
/-- Two rows of a small multiplier are added on it, by an adder of four bits. -/
lemma Multiplier.build_gateOnly :
    ∃ m built o p, Multiplier.build gateOnly 2 2 0 false .standard = .ok (m, built) ∧
      m.heapOutcome? = some o ∧ o.merge = some p ∧ built.subcomponents = #[rippleComponent 4] := by
  have hlut : ¬ 2 + 2 ≤ gateOnly.lutInputs + 2 := by decide
  have hpipelined : gateOnly.pipelined = false := rfl
  have hplan : ChunkPlan.make gateOnly 4 gateOnly.period =
      .ok ⟨4, layChunks 0 [4], .single, 0, 0⟩ := rfl
  have hzero : Nat.repr 0 = "0" := rfl
  have hone : Nat.repr 1 = "1" := rfl
  have htwo : Nat.repr 2 = "2" := rfl
  simp [Site.addRows, Site.addRowsFrom, Site.addRow, Multiplier.heapOutcome?, Builder.finish,
    Builder.finishWith, hlut, hpipelined, hplan, hzero, hone, htwo]

theorem combinational_of_builds_small :
    gateOnly.pipelined = false ∧ unclocked.pipelined = false ∧
    (∃ m built o p, Multiplier.build gateOnly 2 2 0 false .standard = .ok (m, built) ∧
      (∀ c ∈ built.components, c.Combinational) ∧ m.heapOutcome? = some o ∧
        o.merge = some p ∧ p.size = 1) ∧
    (∃ a built, LongAdder.build unclocked 3 = .ok (a, built) ∧
      (∀ c ∈ built.components, c.Combinational) ∧ a.latency = 0 ∧ a.plan.size = 1) ∧
    ∃ s built, Shifter.build unclocked 1 1 .left = .ok (s, built) ∧
      ∀ c ∈ built.components, c.Combinational := by
  obtain ⟨hbuilt, -, hmerge⟩ := combinational_of_builds (t := gateOnly) rfl
  obtain ⟨hbuilt', hadder, -⟩ := combinational_of_builds (t := unclocked) rfl
  obtain ⟨m, multiplier, o, p, hm, ho, hp, -⟩ := Multiplier.build_gateOnly
  obtain ⟨a, adder, ha⟩ := LongAdder.build_unclocked
  obtain ⟨s, shifter, hs⟩ := Shifter.build_unclocked
  exact ⟨rfl, rfl,
    ⟨m, multiplier, o, p, hm, hbuilt _ (.multiplier hm), ho, hp, hmerge _ _ _ _ _ _ _ hm o ho p hp⟩,
    ⟨a, adder, ha, hbuilt' _ (.adder ha), hadder _ _ _ ha⟩,
    s, shifter, hs, hbuilt' _ (.shifter hs)⟩

end Datapath
