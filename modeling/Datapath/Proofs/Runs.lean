/-
Small constructions, run by `simp`.

* `Runs`: a simp set with the equations of the steps of a construction. It is
  opened where an operator is built from numbers.
-/
import Datapath.Builder
import Mathlib.Tactic.Lemma

namespace Datapath.Runs

variable {ε σ : Type}

/-- The state is read. -/
lemma run_get (s : σ) : (get : EStateM ε σ σ) s = .ok s s := rfl

/-- The state is changed. -/
lemma run_modify (f : σ → σ) (s : σ) : (modify f : EStateM ε σ PUnit) s = .ok ⟨⟩ (f s) := rfl

attribute [scoped simp] bind pure EStateM.bind EStateM.pure Except.bind Except.pure run_get
  run_modify

attribute [scoped simp] Arena.alloc Arena.get? Arena.size Arena.empty Arena.update toString
  Std.HashMap.contains_insert

attribute [scoped simp] Schedule.forTarget Schedule.start Schedule.now Schedule.signal?
  Schedule.signal Schedule.moveTo Schedule.rewindTo Schedule.syncTo Schedule.declareAt
  Schedule.declare Schedule.declareInput Schedule.declareOutput Schedule.read Schedule.advance

attribute [scoped simp] Builder.start Builder.forTarget Builder.construct Build.schedule
  Build.ofExcept Build.reschedule Build.now Build.uniqueId Build.record Build.moveTo Build.syncTo
  Build.declare Build.addPort Build.addInput Build.addOutput Build.read Build.advance
  Build.addSubcomponent Build.instantiate

end Datapath.Runs
