/-
The tiling that a search returns.

* `Search.Sound`: the search is about one problem, and what it holds for the
  best tiling has a property.
* `Search.Sound.step`, `Walk.Sound.move`: one step of either search keeps that
  if all tilings with blocks apart have the property, as their blocks stay
  apart; `Search.Sound.runSteps` follows for all steps.
* `Walk.Kept`: what looks at the budget and moves keep; `Walk.Kept.anneal`: a
  search by a random walk keeps it.
* `overrun_anneal`: a random walk does not share out the time, so no share
  outlasts the clock.
* `Search.run_best`, `Search.anneal_outcome`: so the result of a search has it,
  by either strategy and whatever the random choices are.
-/
import Datapath.Proofs.Tiling.Arrangement

namespace Datapath.Tiling

variable {p : Problem} {b : Budget} {Q : Configuration → Prop}

namespace Search

variable {s : Search}

/-- The search is about this problem and within this budget, and the best tiling
so far has the property. No share of a time that the clock can count outlasts
it. -/
structure Sound (p : Problem) (b : Budget) (Q : Configuration → Prop) (s : Search) : Prop where
  problem : s.problem = p
  budget : s.budget = b
  best : ∀ c, s.best = some c → Q c
  timely : b.time < clockSpan → s.overrun = false

end Search

/-- The blocks are apart, and a tiling that is about to be compared has the
property. -/
def SearchState.Sound (p : Problem) (Q : Configuration → Prop) : SearchState → Prop
  | .init => True
  | .probe config => p.Apart config
  | .evaluate config => p.Apart config
  | .compare config candidate => p.Apart config ∧ Q candidate
  | .done => True

namespace Search.Sound

variable {s : Search}

lemma start (p : Problem) (b : Budget) (c : Clock) : (Search.start p b c).Sound p b Q :=
  ⟨rfl, rfl, fun _ h => (nomatch h), fun _ => rfl⟩

lemma checkBudget (h : s.Sound p b Q) : s.checkBudget.Sound p b Q :=
  ⟨h.problem, h.budget, h.best, h.timely⟩

lemma startLevel (h : s.Sound p b Q) (count : ℕ) : (s.startLevel count).Sound p b Q := by
  refine ⟨h.problem, h.budget, h.best, ?_⟩
  intro htime
  have hshare : b.time / (count + 1) < clockSpan :=
    Nat.lt_of_le_of_lt (Nat.div_le_self _ _) htime
  simp [Search.startLevel, h.budget, h.timely htime, hshare]

lemma evaluate (h : s.Sound p b Q) (hall : ∀ config, p.Apart config → Q (p.evaluate config))
    {config : List ℕ} (hconfig : p.Apart config) :
    Q (s.evaluate config).1 ∧ (s.evaluate config).2.Sound p b Q :=
  ⟨by rw [Search.evaluate, h.problem]; exact hall config hconfig, h.problem, h.budget, h.best,
    h.timely⟩

/-- The better one of two tilings with the property has it. -/
lemma offer (h : s.Sound p b Q) {candidate : Configuration} (hQ : Q candidate) :
    (s.offer candidate).Sound p b Q := by
  have hnew : ({ s with best := some candidate } : Search).Sound p b Q :=
    ⟨h.problem, h.budget, fun c hc => Option.some.inj hc ▸ hQ, h.timely⟩
  rw [Search.offer]
  split
  · split_ifs
    · exact hnew
    · exact h
  · exact hnew

lemma descend (h : s.Sound p b Q) (count : ℕ) :
    (Search.descend count s).1.Sound p Q ∧ (Search.descend count s).2.Sound p b Q := by
  induction count generalizing s with
  | zero => exact ⟨trivial, h⟩
  | succ count ih =>
    rw [Search.descend]
    split
    · rename_i config hconfig
      rw [(h.startLevel count).problem] at hconfig
      exact ⟨Problem.complete?_apart (.nil p) hconfig, h.startLevel count⟩
    · exact ih (h.startLevel count)

/-- One step keeps the property. -/
lemma step (h : s.Sound p b Q) (hall : ∀ config, p.Apart config → Q (p.evaluate config))
    {state : SearchState} (hstate : state.Sound p Q) :
    (s.step state).1.Sound p Q ∧ (s.step state).2.Sound p b Q := by
  cases state with
  | init =>
    have hgreedy : p.Apart s.problem.greedy := h.problem ▸ Problem.greedy_apart s.problem
    obtain ⟨hQ, hsearch⟩ := (h.startLevel _).evaluate hall hgreedy
    exact ⟨⟨hgreedy, hQ⟩, hsearch⟩
  | probe config =>
    rw [Search.step]
    split_ifs
    · exact ⟨trivial, h.checkBudget⟩
    · exact descend (s := { s.checkBudget with truncated := true })
        ⟨h.problem, h.budget, h.best, h.timely⟩ _
    · split
      · rename_i next hnext
        rw [h.checkBudget.problem] at hnext
        exact ⟨Problem.successor?_apart hstate hnext, h.checkBudget⟩
      · exact h.checkBudget.descend _
  | evaluate config =>
    rw [Search.step]
    split_ifs
    · exact ⟨trivial, h.checkBudget⟩
    · obtain ⟨hQ, hsearch⟩ := h.checkBudget.evaluate hall hstate
      exact ⟨⟨hstate, hQ⟩, hsearch⟩
  | compare config candidate => exact ⟨hstate.1, h.offer hstate.2⟩
  | done => exact ⟨trivial, h⟩

/-- All steps keep the property. -/
lemma runSteps (h : s.Sound p b Q) (hall : ∀ config, p.Apart config → Q (p.evaluate config))
    {state : SearchState} (hstate : state.Sound p Q) (limit : ℕ) :
    (Search.runSteps limit state s).Sound p b Q := by
  induction limit generalizing state s with
  | zero => exact h
  | succ limit ih =>
    cases hdone : state with
    | done => exact h
    | _ =>
      obtain ⟨hnext, hsearch⟩ := h.step hall hstate
      rw [hdone] at hnext hsearch
      exact ih hsearch hnext

/-- The result has the property, also if nothing was compared. -/
lemma outcome (h : s.Sound p b Q) (hall : ∀ config, p.Apart config → Q (p.evaluate config)) :
    Q s.outcome.best ∧ (b.time < clockSpan → s.outcome.overrun = false) := by
  rw [Search.outcome]
  split
  case h_1 best hbest => exact ⟨h.best best hbest, h.timely⟩
  case h_2 => exact ⟨(h.evaluate hall (.nil p)).1, h.timely⟩

end Search.Sound

/-! ### Random walks -/

namespace Walk

variable {σ : Type} {source : Random.Source σ} {w : Walk σ} {P : Walk σ → Prop}

/-- The walk at the greedy arrangement. -/
def first (s : Search) (random : σ) : Walk σ where
  search := { (s.evaluate s.problem.greedy).2 with best := some (s.evaluate s.problem.greedy).1 }
  current := s.problem.greedy
  currentCost := (s.evaluate s.problem.greedy).1.cost
  random := random

lemma anneal_eq (source : Random.Source σ) (random : σ) (s : Search) :
    anneal source random s =
      if s.problem.candidates.isEmpty then (first s random).search
      else ((first s random).cool source (10 * (s.problem.greedy.length + 1)) maxCoolings
        (2.0 * s.problem.cost.block)).search :=
  rfl

/-- A property that a look at the budget keeps, and so does a move after it if the
budget is not spent. -/
structure Kept (source : Random.Source σ) (P : Walk σ → Prop) : Prop where
  check : ∀ w, P w → P { w with search := w.search.checkBudget }
  move : ∀ (w : Walk σ) (temperature : Float), P w → w.search.checkBudget.exhausted = false →
    P (({ w with search := w.search.checkBudget } : Walk σ).move source temperature).2

namespace Kept

lemma moves (hkept : Kept source P) (h : P w) (temperature : Float) (count accepted : ℕ) :
    P (Walk.moves source temperature count accepted w).2.2 := by
  induction count generalizing w accepted with
  | zero => exact h
  | succ count ih =>
    rw [Walk.moves]
    dsimp only
    split_ifs with hspent
    · exact hkept.check w h
    all_goals exact ih (hkept.move w temperature h (Bool.not_eq_true _ ▸ hspent)) _

lemma cool (hkept : Kept source P) (h : P w) (perTemperature coolings : ℕ)
    (temperature : Float) : P (Walk.cool source perTemperature coolings temperature w) := by
  induction coolings generalizing w temperature with
  | zero => exact h
  | succ coolings ih =>
    have hmoves := hkept.moves h temperature perTemperature 0
    rw [Walk.cool]
    split_ifs
    · dsimp only
      split_ifs
      · exact hmoves
      · exact ih hmoves _
    · exact h

/-- The search by a random walk is that of a walk with the property. -/
lemma anneal (hkept : Kept source P) {s : Search} {random : σ} (h : P (first s random)) :
    ∃ w, P w ∧ Tiling.anneal source random s = w.search := by
  have hanneal := anneal_eq source random s
  split_ifs at hanneal
  · exact ⟨_, h, hanneal⟩
  · exact ⟨_, hkept.cool h _ _ _, hanneal⟩

end Kept

/-- The search is sound, and the walk is where blocks are apart. -/
structure Sound (p : Problem) (b : Budget) (Q : Configuration → Prop) (w : Walk σ) : Prop where
  search : w.search.Sound p b Q
  current : p.Apart w.current

/-- A move keeps the property of the best tiling. -/
lemma Sound.move (h : w.Sound p b Q) (hall : ∀ config, p.Apart config → Q (p.evaluate config))
    (temperature : Float) : (w.move source temperature).2.Sound p b Q := by
  rw [Walk.move]
  split
  · exact ⟨h.search, h.current⟩
  · rename_i next random hnext
    rw [h.search.problem] at hnext
    have hapart : p.Apart next := neighbour_apart h.current (congrArg Prod.fst hnext)
    obtain ⟨hQ, hsearch⟩ := h.search.evaluate hall hapart
    dsimp only
    split_ifs
    · exact ⟨hsearch.offer hQ, hapart⟩
    · exact ⟨hsearch.offer hQ, hapart⟩
    · exact ⟨hsearch.offer hQ, h.current⟩

lemma sound_kept (source : Random.Source σ)
    (hall : ∀ config, p.Apart config → Q (p.evaluate config)) :
    Kept source fun w => w.Sound p b Q := by
  have hcheck : ∀ w : Walk σ, w.Sound p b Q →
      ({ w with search := w.search.checkBudget } : Walk σ).Sound p b Q :=
    fun _ h => ⟨h.search.checkBudget, h.current⟩
  exact ⟨hcheck, fun w temperature h _ => (hcheck w h).move hall temperature⟩

end Walk

/-- The walk from the greedy tiling. -/
lemma anneal_sound {σ : Type} {source : Random.Source σ} {s : Search} (h : s.Sound p b Q)
    (hall : ∀ config, p.Apart config → Q (p.evaluate config)) (random : σ) :
    (anneal source random s).Sound p b Q := by
  have hgreedy : p.Apart s.problem.greedy := h.problem ▸ Problem.greedy_apart s.problem
  obtain ⟨hQ, hsearch⟩ := h.evaluate hall hgreedy
  have hfirst : (Walk.first s random).search.Sound p b Q :=
    ⟨hsearch.problem, hsearch.budget, fun c hc => Option.some.inj hc ▸ hQ, hsearch.timely⟩
  obtain ⟨w, hw, hanneal⟩ := (Walk.sound_kept source hall).anneal ⟨hfirst, hgreedy⟩
  exact hanneal ▸ hw.search

/-! ### Time -/

lemma Search.overrun_offer (s : Search) (candidate : Configuration) :
    (s.offer candidate).overrun = s.overrun := by
  rw [offer]
  split
  · split_ifs <;> rfl
  · rfl

lemma Search.overrun_outcome (s : Search) : s.outcome.overrun = s.overrun := by
  rw [outcome]
  split <;> rfl

namespace Search

variable {s : Search}

lemma overrun_descend (h : s.overrun = true) (count : ℕ) : (descend count s).2.overrun = true := by
  induction count generalizing s with
  | zero => exact h
  | succ count ih =>
    have hlevel : (s.startLevel count).overrun = true := by rw [startLevel, h, Bool.true_or]
    rw [descend]
    split
    · exact hlevel
    · exact ih hlevel

/-- Once a share of the time outlasts the clock, every step keeps this. -/
lemma overrun_step (h : s.overrun = true) (state : SearchState) :
    (s.step state).2.overrun = true := by
  cases state with
  | init =>
    change (s.overrun || _) = true
    rw [h, Bool.true_or]
  | probe config =>
    rw [step]
    split_ifs
    · exact h
    · exact overrun_descend (s := { s.checkBudget with truncated := true }) h _
    · split
      · exact h
      · exact overrun_descend (s := s.checkBudget) h _
  | evaluate config =>
    rw [step]
    split_ifs <;> exact h
  | compare config candidate => exact (overrun_offer s candidate).trans h
  | done => exact h

lemma overrun_runSteps (h : s.overrun = true) (state : SearchState) (limit : ℕ) :
    (runSteps limit state s).overrun = true := by
  induction limit generalizing state s with
  | zero => exact h
  | succ limit ih =>
    cases hdone : state with
    | done => exact h
    | _ =>
      rw [← hdone]
      have hnext := ih (overrun_step h state) (s.step state).1
      rw [hdone] at hnext ⊢
      exact hnext

/-- The first share of the time is the one of the greedy arrangement. -/
lemma overrun_exhaustive [Surroundings] {b : Budget} (c : Clock)
    (h : clockSpan ≤ b.time / (p.greedy.length + 1)) :
    ((start p b c).run .exhaustive).overrun = true := by
  have hfirst : ((start p b c).step .init).2.overrun = true := by
    change (false || decide (clockSpan ≤ b.time / (p.greedy.length + 1))) = true
    rw [Bool.false_or, decide_eq_true h]
  exact (overrun_outcome _).trans (overrun_runSteps hfirst _ _)

end Search

/-- A walk has no shares of the time. -/
lemma Walk.overrun_move {σ : Type} (source : Random.Source σ) (temperature : Float) (w : Walk σ) :
    (w.move source temperature).2.search.overrun = w.search.overrun := by
  rw [move]
  split
  · rfl
  · dsimp only
    split_ifs <;> exact Search.overrun_offer _ _

/-- So a random walk always has a result. -/
lemma overrun_anneal {σ : Type} (source : Random.Source σ) (random : σ) (s : Search) :
    (anneal source random s).overrun = s.overrun := by
  have hkept : Walk.Kept source fun w => w.search.overrun = s.overrun :=
    ⟨fun _ h => h, fun w temperature h _ => (Walk.overrun_move source temperature _).trans h⟩
  have hfirst : (Walk.first s random).search.overrun = s.overrun := rfl
  obtain ⟨w, hw, hanneal⟩ := hkept.anneal hfirst
  exact hanneal ▸ hw

namespace Search

variable (hall : ∀ config, p.Apart config → Q (p.evaluate config)) (b : Budget) (c : Clock)

include hall

/-- What holds of every tiling with blocks apart holds of the one that a random
walk returns, whatever the random choices are. There is a result if the clock
can count the time. -/
theorem anneal_outcome {σ : Type} (source : Random.Source σ) (random : σ) :
    Q (anneal source random (start p b c)).outcome.best ∧
      (b.time < clockSpan →
        (anneal source random (start p b c)).outcome.overrun = false) :=
  (anneal_sound (.start p b c) hall random).outcome hall

/-- What holds of every tiling with blocks apart holds of the one that a search
returns, whatever the strategy, the budget and the clock are. There is a result
if the clock can count the time. -/
theorem run_best [Surroundings] (strategy : Strategy) :
    Q ((start p b c).run strategy).best ∧
      (b.time < clockSpan → ((start p b c).run strategy).overrun = false) := by
  cases strategy with
  | exhaustive =>
    have hinit : SearchState.init.Sound p Q := trivial
    exact ((Sound.start p b c).runSteps hall hinit _).outcome hall
  | annealing seed => exact anneal_outcome hall b c _ _

end Search

end Datapath.Tiling
