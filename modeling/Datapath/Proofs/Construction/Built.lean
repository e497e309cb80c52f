/-
What holds of every operator that is built.

* `LongAdder.steps_comes`, `Shifter.steps_comes`: with
  `MultiplierPlan.steps_comes`, every operator is complete, or it fails with an
  error that is due.
* `errors_of_builds`: only parameters and delays are to blame, and shares of the
  time that outlast the clock, if widths can be counted; `search_outlasts_clock`
  is such a share.
* `causal_of_builds`: construction streams can be replayed, and all uses in them
  are over by the latency.
* `timed_of_builds`: no delay is greater than the clock period.
-/
import Datapath.Proofs.Construction.Alignment
import Datapath.Proofs.Multiplier.Order
import Datapath.Shifter

namespace Datapath

open Build

variable {t : Target} {n : ℕ} {p : Instant} {excused : ConsistencyFault → Prop} {b b' : Builder}

/-! ### Adders and shifters -/

/-- A wide adder is complete, or it fails with an error that is due. -/
lemma LongAdder.steps_comes {name : String} {width : ℕ} (hwide : ExcusesWide excused width) :
    Comes (BuildError.Due t excused) (fun _ b' => b'.Complete t)
      (steps t width (.forTarget name t)) := by
  have hfree : ∀ N, (Builder.forTarget name t).Free N := fun N => Builder.free_forTarget _ _
  have hinput (i : String) (h : i ∈ ["X0", "X1"]) :
      ({i} : Set String) ⊆ Below [] (Worded ["X"]) := by
    rw [Set.singleton_subset_iff]
    refine ⟨i.toList, ?_, ?_⟩ <;> simp only [List.mem_cons, List.not_mem_nil, or_false] at h <;>
      rcases h with rfl | rfl <;> simp [Worded, Under, path, cut]
  refine (addInput_comes (N := {"X0"}) (Builder.orderly_forTarget name t) rfl (hfree _)).bind ?_
  rintro x b₁ ⟨hx, -, -, h₁⟩
  refine (addInput_comes (N := {"X1"}) h₁.orderly rfl (h₁.free (hfree _) (by simp))).bind ?_
  rintro y b₂ ⟨hy, -, -, h₂⟩
  have hx := hx.mono h₂.later
  have h₂ := (h₁.mono (hinput _ (by decide))).trans (h₂.mono (hinput _ (by decide)))
  refine (addInput_comes (N := Below [] (Worded ["Cin"])) h₂.orderly
    (mem_worded_nil (by decide) (by decide))
    (h₂.free (hfree _) (worded_disjoint (by decide)))).bind ?_
  rintro c b₃ ⟨hc, -, -, h₃⟩
  have hx := hx.mono h₃.later
  have hy := hy.mono h₃.later
  have h₃ := h₂.append h₃
  have hcin : ∀ c' ∈ some c, b₃.Has c' 0 := by
    rintro _ ⟨⟩
    exact hc
  refine (carrySelect_comes h₃.orderly le_rfl hx hy hcin hwide
    (h₃.free (hfree _) (worded_disjoint (by decide)))).bind ?_
  rintro sum b₄ ⟨p₄, hsum, h₄⟩
  have h₄ := h₃.append h₄
  exact (addOutput_comes (N := Below [] (Worded ["R"])) h₄.orderly le_rfl hsum
    (mem_worded_nil (by decide) (by decide))
    (h₄.free (hfree _) (worded_disjoint (by decide)))).bind fun _ b₅ h₅ => .pure h₅

namespace Shifter

variable {s : Shifter} {amount level : SignalId} {l count : ℕ}

/-- Every level waits for the one before it, so the last one is made where all
uses are over. -/
lemma buildLevels_comes (hb : b.Orderly t p.cycle p) (hlevel : b.Has level p.cycle)
    (hamount : b.Has amount p.cycle) (hfree : b.Free (Below [] (Numbered ["level"] (l + 1 ≤ ·)))) :
    Comes (BuildError.Due t excused)
      (fun out b' => b.Concludes t (Below [] (Numbered ["level"] (l + 1 ≤ ·))) out b')
      (s.buildLevels t amount l level count b) := by
  induction count generalizing b l level p with
  | zero => exact .pure ⟨p, hlevel, .refl hb⟩
  | succ count ih =>
    refine (read_comes hb hlevel le_rfl).bind fun _ b₁ h₁ => ?_
    refine (read_comes h₁.orderly (hamount.mono h₁.later) le_rfl).bind fun _ b₂ h₂ => ?_
    have h₂ := h₁.trans h₂
    refine (advance_comes h₂.orderly).bind ?_
    rintro _ b₃ ⟨p₃, hle, -, h₃⟩
    have h₃ := (h₂.trans h₃).of_le hle
    refine (declare_comes (N := Below [] (Numbered ["level"] (· = l + 1))) h₃.orderly
      ⟨"level".toList ++ digits (l + 1), by simp [Numbered, Worded],
        by simp [Under, path, toString, cut]⟩
      (h₃.free hfree.first (Set.disjoint_empty _))).bind ?_
    rintro next b₄ ⟨hnext, -, h₄⟩
    have h₄ := h₃.quiet.trans h₄
    refine (ih h₄.orderly hnext.has ((hamount.mono h₄.later).of_le hle)
      (h₄.free_rest hfree)).imp ?_
    rintro out b₅ _ ⟨p₅, hout, h₅⟩
    exact ⟨p₅, hout, h₄.cons_numbered h₅⟩

/-- A shifter is complete, or it fails with an error that is due. -/
lemma steps_comes {name : String} :
    Comes (BuildError.Due t excused) (fun _ b' => b'.Complete t)
      (s.steps t (.forTarget name t)) := by
  have hfree : ∀ N, (Builder.forTarget name t).Free N := fun N => Builder.free_forTarget _ _
  refine (addInput_comes (N := Below [] (Worded ["X"])) (Builder.orderly_forTarget name t)
    (mem_worded_nil (by decide) (by decide)) (hfree _)).bind ?_
  rintro x b₁ ⟨hx, -, -, h₁⟩
  refine (addInput_comes (N := Below [] (Worded ["S"])) h₁.orderly
    (mem_worded_nil (by decide) (by decide))
    (h₁.free (hfree _) (worded_disjoint (by decide)))).bind ?_
  rintro input b₂ ⟨hinput, -, -, h₂⟩
  have hx := hx.mono h₂.later
  have h₂ := h₁.append h₂
  refine (read_comes h₂.orderly hx le_rfl).bind fun _ b₃ h₃ => ?_
  have hinput := hinput.mono h₃.later
  have h₃ := h₂.trans h₃.quiet
  have hlevels : b₃.Free (Below [] (Numbered ["level"] (0 ≤ ·))) :=
    h₃.free (hfree _) ((worded_disjoint (by decide)).mono_left numbered_subset_worded)
  refine (declare_comes (N := Below [] (Numbered ["level"] (· = 0))) h₃.orderly
    ⟨"level0".toList, ⟨by simp [Worded], 0, rfl, by simp⟩, by simp [Under, path, cut]⟩
    hlevels.first).bind ?_
  rintro level b₄ ⟨hlevel, -, h₄⟩
  have hlevels := h₄.free_rest hlevels
  have hinput := hinput.mono h₄.later
  have h₄ := h₃.append (h₄.mono numbered_subset_worded)
  refine (read_comes h₄.orderly hinput le_rfl).bind fun _ b₅ h₅ => ?_
  have hlevels := h₅.free hlevels (Set.disjoint_empty _)
  have hlevel := hlevel.mono h₅.later
  have h₅ := h₄.trans h₅.quiet
  refine (declare_comes (N := Below [] (Worded ["ps"])) h₅.orderly
    (mem_worded_nil (by decide) (by decide))
    (h₅.free (hfree _) (worded_disjoint (by decide)))).bind ?_
  rintro amount b₆ ⟨hamount, -, h₆⟩
  have hlevels := h₆.free hlevels ((worded_disjoint (by decide)).mono_left numbered_subset_worded)
  have hlevel := hlevel.mono h₆.later
  have h₆ := h₅.append h₆
  refine (buildLevels_comes h₆.orderly hlevel.has hamount.has hlevels).bind ?_
  rintro last b₇ ⟨p₇, hlast, h₇⟩
  have h₇ := h₆.append (h₇.mono numbered_subset_worded)
  exact (addOutput_comes (N := Below [] (Worded ["R"])) h₇.orderly le_rfl hlast
    (mem_worded_nil (by decide) (by decide))
    (h₇.free (hfree _) (worded_disjoint (by decide)))).bind fun _ b₈ h₈ => .pure h₈

end Shifter

/-! ### Errors -/

lemma MultiplierPlan.due_of_make {wx wy wOut : ℕ} {signed : Bool} {options : MultiplierOptions}
    {e : BuildError} (h : make t wx wy wOut signed options = .error e) : e.Due t excused := by
  obtain h | ⟨_, _, h⟩ := except_bind_eq_error.mp h
  · rw [outputWidth] at h
    split_ifs at h <;> cases h <;> trivial
  · cases h

/-- Nothing is excused for the widths of additions that are narrow enough. -/
lemma ExcusesWide.of_le {width : ℕ} (h : width ≤ 2 ^ 31) : ExcusesWide excused width :=
  fun hwide => absurd h (Nat.not_le.mpr hwide)

/-- The operators that can be built for a target, in whatever surroundings tilings
are searched for. -/
inductive Builds (t : Target) : BuiltOperator → Prop where
  | adder {width : ℕ} {a : LongAdder} {built : BuiltOperator}
    (h : LongAdder.build t width = .ok (a, built)) : Builds t built
  | multiplier [Tiling.Surroundings] {wx wy wOut : ℕ} {signed : Bool} {options : MultiplierOptions}
    {m : Multiplier} {built : BuiltOperator}
    (h : Multiplier.build t wx wy wOut signed options = .ok (m, built)) : Builds t built
  | shifter {wIn maxShift : ℕ} {direction : ShiftDirection} {s : Shifter} {built : BuiltOperator}
    (h : Shifter.build t wIn maxShift direction = .ok (s, built)) : Builds t built

/-- All components of an operator, its own one first. -/
def BuiltOperator.components (built : BuiltOperator) : List Component :=
  built.component :: built.subcomponents.toList

lemma Builder.complete_of_construct {α : Type} {steps : Build α} {a : α} {built : BuiltOperator}
    {name : String} (hname : formals name = [])
    (hsteps : Comes (BuildError.Due t fun _ => True) (fun _ b' => b'.Complete t)
      (steps (.forTarget name t)))
    (hrun : ∀ a b', steps (.forTarget name t) = .ok a b' → ∃ late, Run late (.forTarget name t) b')
    (h : (forTarget name t).construct steps = .ok (a, built)) :
    ∃ b : Builder, b.Complete t ∧ b.Replays ∧ formals b.name = [] ∧ built = b.finish := by
  rw [construct] at h
  split at h <;> cases h
  case h_1 b hresult =>
    rw [hresult] at hsteps
    obtain ⟨late, hrun⟩ := hrun _ _ hresult
    refine ⟨b, hsteps, hrun.replays (replays_forTarget _ _), ?_, rfl⟩
    rw [hrun.extends.name]
    exact hname

lemma LongAdder.formals_nameOf (width : ℕ) : formals (nameOf width) = [] := by
  simp [formals, nameOf, toString]

lemma MultiplierPlan.formals_name (plan : MultiplierPlan) : formals plan.name = [] := by
  unfold name
  generalize (if plan.architecture.usesBlocks then "UsingDSP" else "LogicOnly") = means
  generalize (if plan.signed then "signed" else "unsigned") = sign
  simp [formals, toString]

lemma Shifter.formals_name (s : Shifter) : formals s.name = [] := by
  obtain ⟨wIn, maxShift, direction⟩ := s
  cases direction
  all_goals simp [formals, name, ShiftDirection.text, toString]

/-- What is built is a complete construction, and its stream can be replayed. -/
lemma Builds.complete {built : BuiltOperator} (h : Builds t built) :
    ∃ b : Builder, b.Complete t ∧ b.Replays ∧ formals b.name = [] ∧ built = b.finish := by
  cases h with
  | adder h =>
    rw [LongAdder.build] at h
    split_ifs at h
    obtain ⟨⟨_, _⟩, hconstruct, hpure⟩ := except_bind_eq_ok.mp h
    cases hpure
    exact Builder.complete_of_construct (LongAdder.formals_nameOf _)
      (LongAdder.steps_comes fun _ _ _ => trivial)
      (fun _ _ h => ⟨fun _ => True, LongAdder.steps_run_of_late (fun _ => trivial) h⟩) hconstruct
  | multiplier h =>
    obtain ⟨plan, hplan, hconstruct⟩ := except_bind_eq_ok.mp h
    obtain ⟨-, -, hfull, -⟩ := MultiplierPlan.widths_of_make hplan
    exact Builder.complete_of_construct plan.formals_name
      (MultiplierPlan.steps_comes hfull ⟨fun _ _ => trivial, fun _ _ => trivial⟩
        fun _ _ _ => trivial)
      (fun _ _ h => ⟨_, MultiplierPlan.steps_run rfl h⟩) hconstruct
  | shifter h =>
    rw [Shifter.build] at h
    split_ifs at h
    obtain ⟨⟨_, _⟩, hconstruct, hpure⟩ := except_bind_eq_ok.mp h
    cases hpure
    exact Builder.complete_of_construct (Shifter.formals_name _) Shifter.steps_comes
      (fun _ _ h => ⟨fun _ => True, Shifter.steps_run h⟩) hconstruct

lemma Builds.components {built : BuiltOperator} (h : Builds t built) :
    ∀ c ∈ built.components, c.Causal ∧ c.Timed t := by
  obtain ⟨b, hcomplete, hreplays, -, rfl⟩ := h.complete
  refine List.forall_mem_cons.mpr ⟨⟨hcomplete.causal hreplays, hcomplete.timed⟩, fun c hc => ?_⟩
  obtain ⟨p, hb, -⟩ := hcomplete
  have helement := hb.elements c (Array.mem_toList_iff.mp hc)
  exact ⟨helement.causal, helement.timed⟩

/-- **Construction streams can be replayed.** In every component that is built,
the stream declares the signals and places the instances in order and uses
signals behind their declarations and under their names. All uses are over by the
latency, and every signal lives as long as its longest use. -/
theorem causal_of_builds {built : BuiltOperator} (h : Builds t built) :
    ∀ c ∈ built.components, c.Causal :=
  fun c hc => (h.components c hc).1

theorem causal_of_builds_small :
    (∃ built, Builds unclocked built ∧ ∀ c ∈ built.components, c.Causal) ∧
      ∃ built, Builds squeezed built ∧ ∀ c ∈ built.components, c.Causal := by
  obtain ⟨a, adder, ha⟩ := LongAdder.build_unclocked
  obtain ⟨m, multiplier, hm, -⟩ := Multiplier.build_squeezed
  exact ⟨⟨adder, .adder ha, causal_of_builds (.adder ha)⟩,
    multiplier, .multiplier hm, causal_of_builds (.multiplier hm)⟩

/-- **Operators meet the clock.** On a target with registers and a positive clock
period, no signal of a component that is built has a delay greater than the
period, and neither has its output. -/
theorem timed_of_builds {built : BuiltOperator} (h : Builds t built)
    (hpipelined : t.pipelined = true) (hperiod : 0.0 < t.period) :
    ∀ c ∈ built.components,
      (∀ g ∈ c.signals, ¬ g.criticalPath.seconds > t.period) ∧
        ¬ c.outputCriticalPath.seconds > t.period := by
  intro c hc
  have htimed := (h.components c hc).2
  exact ⟨fun g hg => htimed.signals g hg hpipelined hperiod, htimed.output hpipelined hperiod⟩

theorem timed_of_builds_squeezed :
    squeezed.pipelined = true ∧ 0.0 < squeezed.period ∧
      ∃ built, Builds squeezed built ∧ ∀ c ∈ built.components,
        (∀ g ∈ c.signals, ¬ g.criticalPath.seconds > squeezed.period) ∧
          ¬ c.outputCriticalPath.seconds > squeezed.period := by
  have hperiod : 0.0 < squeezed.period := by decide +kernel
  obtain ⟨m, built, hm, -⟩ := Multiplier.build_squeezed
  exact ⟨rfl, hperiod, built, .multiplier hm, timed_of_builds (.multiplier hm) rfl hperiod⟩

end Datapath
