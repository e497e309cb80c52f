/-
The exhaustive search step by step.

* `Search.after`: where the search is after some steps; `Search.evaluated`: the
  arrangements that it evaluated until then.
* `Search.after_induct`: what holds at the start and is kept by every step holds
  after any number of steps.
* `Search.Trail`: what was evaluated and what is still to be evaluated are all
  arrangements in order, but for those that the budget cuts off;
  `Search.Trail.step` for one step, `Search.trail_after` for some.
* `Search.done_after`: the search ends.
* `Search.Within`: there is a best tiling, and the limit on the evaluations is
  kept; `Search.Within.step` for one step, `Search.within_exhaust` for all.
* `Search.evaluations_exhaustive`: the result counts what was evaluated.
* `arrangements_of_exhaustive`: if the budget lasts, all arrangements with at
  most as many blocks as the greedy one are evaluated, in order and once each.
  `exhaustive_stumbles`: not if far corners or times cannot be counted.
-/
import Datapath.Proofs.Tiling.Optimal

namespace Datapath.Tiling

variable {p : Problem} {b : Budget} {c : Clock} {s : Search} {state : SearchState}
  {seen : List (List ℕ)} {count : ℕ}

namespace Search

/-- Where the exhaustive search is after some steps. -/
def after (s : Search) : ℕ → SearchState × Search
  | 0 => (.init, s)
  | n + 1 => (s.after n).2.step (s.after n).1

/-- The arrangements that are evaluated in the first steps. A step that
evaluates one is about to compare it afterwards. -/
def evaluated (s : Search) : ℕ → List (List ℕ)
  | 0 => []
  | n + 1 => s.evaluated n ++ (s.after (n + 1)).1.compared

/-- What holds at the start and is kept by every step holds after any number of
steps. -/
lemma after_induct {P : List (List ℕ) → SearchState → Search → Prop} (hinit : P [] .init s)
    (hstep : ∀ seen state t, P seen state t →
      P (seen ++ (t.step state).1.compared) (t.step state).1 (t.step state).2) (n : ℕ) :
    P (s.evaluated n) (s.after n).1 (s.after n).2 := by
  induction n with
  | zero => exact hinit
  | succ n ih => exact hstep _ _ _ ih

end Search

/-! ### What remains to be evaluated -/

namespace SearchState

/-- The arrangements that are still to be evaluated. The one that is about to be
compared no longer is. -/
def rest (p : Problem) (count : ℕ) : SearchState → List (List ℕ)
  | .compare config _ => p.later count config ++ p.fewer count
  | state => state.remaining p count

lemma remaining_eq (p : Problem) (count : ℕ) (state : SearchState) :
    state.remaining p count = state.compared ++ state.rest p count := by
  cases state <;> rfl

/-- The search has begun. -/
def Begun : SearchState → Prop
  | .init => False
  | _ => True

/-- An arrangement that the state looks back at was evaluated. -/
def Recalls (seen : List (List ℕ)) : SearchState → Prop
  | .probe config => config ∈ seen
  | .compare config _ => config ∈ seen
  | _ => True

end SearchState

namespace Search

/-- On the way down to lower numbers of candidates, nothing is evaluated. -/
lemma descend_evaluates (s : Search) (count : ℕ) :
    (descend count s).2.evaluations = s.evaluations + (descend count s).1.compared.length ∧
      (descend count s).1.Recalls seen := by
  obtain ⟨⟨count', share, overrun, hdescend⟩, hstate⟩ := descend_eq s count
  rw [hdescend]
  rcases hstate with hdone | ⟨config, hconfig⟩
  · rw [hdone]
    exact ⟨rfl, trivial⟩
  · rw [hconfig]
    exact ⟨rfl, trivial⟩

/-- A step counts what it evaluates, and looks back at nothing else. -/
lemma step_evaluates (s : Search) (state : SearchState) (seen : List (List ℕ)) :
    (s.step state).2.evaluations = s.evaluations + (s.step state).1.compared.length ∧
      (state.Recalls seen → (s.step state).1.Recalls (seen ++ (s.step state).1.compared)) := by
  cases state with
  | init => exact ⟨rfl, fun _ => List.mem_append_right _ List.mem_cons_self⟩
  | probe config =>
    rw [step]
    split_ifs
    · exact ⟨rfl, fun _ => trivial⟩
    · obtain ⟨hevaluations, hrecalls⟩ :=
        descend_evaluates { s.checkBudget with truncated := true } s.count
      exact ⟨hevaluations, fun _ => hrecalls⟩
    · split
      · exact ⟨rfl, fun _ => trivial⟩
      · obtain ⟨hevaluations, hrecalls⟩ := descend_evaluates s.checkBudget s.count
        exact ⟨hevaluations, fun _ => hrecalls⟩
  | evaluate config =>
    rw [step]
    split_ifs
    · exact ⟨rfl, fun _ => trivial⟩
    · exact ⟨rfl, fun _ => List.mem_append_right _ List.mem_cons_self⟩
  | compare config candidate =>
    obtain ⟨best, hoffer⟩ := s.offer_eq candidate
    rw [step, hoffer]
    exact ⟨rfl, fun h => List.mem_append_left _ h⟩
  | done => exact ⟨rfl, fun _ => trivial⟩

/-- A step evaluates the first arrangement that remains at most. -/
lemma Advances.rest {next : SearchState} (h : Advances p state count next s) :
    ∃ skipped, state.rest p count = skipped ++ (next.compared ++ next.rest p s.count) ∧
      (s.exhausted = false → s.truncated = false → skipped = []) := by
  obtain ⟨skipped, hremaining, hnone⟩ := h.remaining
  rw [state.remaining_eq, next.remaining_eq, List.append_cancel_left_eq] at hremaining
  exact ⟨skipped, hremaining, hnone⟩

/-- What was evaluated and what is still to be evaluated come in the order of
all arrangements, and if the budget lasts so far, they are all of them. -/
structure Trail (p : Problem) (seen : List (List ℕ)) (state : SearchState) (s : Search) :
    Prop where
  problem : s.problem = p
  arrangement : state.At p s.count
  recalls : state.Recalls seen
  counted : s.evaluations = seen.length
  order : (seen ++ state.rest p s.count).Sublist (p.fewer (p.greedy.length + 1))
  whole : s.exhausted = false → s.truncated = false →
    seen ++ state.rest p s.count = p.fewer (p.greedy.length + 1)

lemma Trail.start (p : Problem) (b : Budget) (c : Clock) : Trail p [] .init (Search.start p b c) :=
  ⟨rfl, trivial, trivial, rfl, .refl _, fun _ _ => rfl⟩

/-- One step keeps that. -/
lemma Trail.step (h : Trail p seen state s) :
    Trail p (seen ++ (s.step state).1.compared) (s.step state).1 (s.step state).2 := by
  have hadvances := step_advances h.problem h.arrangement
  obtain ⟨hproblem, -, hexhausted, htruncated⟩ := s.step_keeps state
  obtain ⟨hevaluations, hrecalls⟩ := s.step_evaluates state seen
  obtain ⟨skipped, hrest, hnone⟩ := hadvances.rest
  refine ⟨hproblem.trans h.problem, hadvances.arrangement, hrecalls h.recalls, ?_, ?_, ?_⟩
  · rw [hevaluations, h.counted, List.length_append]
  · -- the arrangements that are passed over drop out
    refine .trans ?_ h.order
    rw [hrest, List.append_assoc]
    exact (List.sublist_append_right skipped _).append_left seen
  · intro hlasts hall
    rw [← h.whole (hexhausted hlasts) (htruncated hall), hrest, hnone hlasts hall,
      List.nil_append, List.append_assoc]

/-- After any number of steps. -/
lemma trail_after (p : Problem) (b : Budget) (c : Clock) (n : ℕ) :
    Trail p ((start p b c).evaluated n) ((start p b c).after n).1 ((start p b c).after n).2 :=
  after_induct (.start p b c) (fun _ _ _ h => h.step) n

/-- The search only looks at candidates that exist. -/
lemma Trail.known (h : Trail p seen state s) : s.looksAtUnknown state = false := by
  have hknown : ∀ config ∈ seen ++ state.rest p s.count, ∀ i ∈ config, ¬ s.problem.size ≤ i := by
    intro config hconfig i hi
    obtain ⟨-, hascends, -⟩ := Problem.mem_fewer.mp (h.order.subset hconfig)
    rw [h.problem, Nat.not_le]
    exact (hascends.2 i hi).2
  cases state with
  | probe config =>
    have hnone : config.findIdx? (s.problem.size ≤ ·) = none := by
      refine List.findIdx?_eq_none_iff.mpr ?_
      intro i hi
      exact decide_eq_false (hknown config (List.mem_append_left _ h.recalls) i hi)
    rw [looksAtUnknown, hnone, Bool.and_false]
  | evaluate config =>
    have hmem : config ∈ seen ++ (SearchState.evaluate config).rest p s.count :=
      List.mem_append_right _ List.mem_cons_self
    have hnone : config.any (s.problem.size ≤ ·) = false := by
      refine List.any_eq_false.mpr ?_
      intro i hi
      simpa using hknown config hmem i hi
    rw [looksAtUnknown, hnone, Bool.and_false]
  | _ => rfl

/-- The search keeps to its problem and its budget. -/
lemma sound_after (p : Problem) (b : Budget) (c : Clock) (n : ℕ) :
    ((start p b c).after n).1.Sound p (fun _ => True) ∧
      ((start p b c).after n).2.Sound p b fun _ => True := by
  refine after_induct (P := fun _ state t => state.Sound p _ ∧ t.Sound p b _)
    ⟨trivial, .start p b c⟩ ?_ n
  intro _ state t h
  exact h.2.step (fun _ _ => trivial) h.1

/-- Time that is never up remains so. -/
lemma unhurried_after (htime : b.time ≠ 0) (n : ℕ) : ((start p b).after n).2.Unhurried :=
  after_induct (P := fun _ _ t => t.Unhurried) ⟨rfl, htime⟩ (fun _ state _ h => h.step state) n

/-- No step fails if the clock can count the time. -/
lemma step?_after (htime : b.time < clockSpan) (n : ℕ) :
    ((start p b c).after n).2.step? ((start p b c).after n).1 =
      some ((start p b c).after (n + 1)) := by
  have hoverrun : (((start p b c).after n).2.step ((start p b c).after n).1).2.overrun = false :=
    (sound_after p b c (n + 1)).2.timely htime
  rw [step?, (trail_after p b c n).known, if_neg Bool.false_ne_true]
  dsimp only
  rw [hoverrun, if_neg Bool.false_ne_true]
  rfl

/-! ### The end of the search -/

/-- A step is one of the steps left. -/
lemma Advances.stepsLeft_le {next : SearchState} {limit n : ℕ}
    (h : Advances p state count next s) (hsteps : state.stepsLeft p count ≤ limit - n) :
    next.stepsLeft p s.count ≤ limit - (n + 1) :=
  (h.stepsLeft.trans (Nat.sub_le_sub_right hsteps 1)).trans_eq (Nat.sub_sub _ _ _)

/-- Every step leaves fewer steps. -/
lemma stepsLeft_after (p : Problem) (b : Budget) (c : Clock) (n : ℕ) :
    ((start p b c).after n).1.stepsLeft p ((start p b c).after n).2.count ≤ stepLimit p - n := by
  induction n with
  | zero => exact stepsLeft_init p _
  | succ n ih =>
    have htrail := trail_after p b c n
    exact (step_advances htrail.problem htrail.arrangement).stepsLeft_le ih

/-- The search ends. -/
lemma done_after (p : Problem) (b : Budget) (c : Clock) :
    ((start p b c).after (stepLimit p)).1 = .done := by
  have hsteps := stepsLeft_after p b c (stepLimit p)
  rw [Nat.sub_self] at hsteps
  exact eq_done_of_stepsLeft (Nat.eq_zero_of_le_zero hsteps)

lemma runSteps_succ (limit : ℕ) (state : SearchState) (s : Search) :
    runSteps (limit + 1) state s = runSteps limit (s.step state).1 (s.step state).2 := by
  cases state with
  | done => cases limit <;> rfl
  | _ => rfl

lemma runSteps_after (s : Search) (limit n : ℕ) :
    runSteps limit (s.after n).1 (s.after n).2 = (s.after (n + limit)).2 := by
  induction limit generalizing n with
  | zero => cases (s.after n).1 <;> rfl
  | succ limit ih =>
    rw [runSteps_succ, ← Nat.add_assoc, Nat.add_right_comm]
    exact ih (n + 1)

/-- The whole search is enough steps. -/
lemma exhaust_eq (p : Problem) (b : Budget) (c : Clock) :
    (start p b c).exhaust = ((start p b c).after (stepLimit p)).2 := by
  have hruns := runSteps_after (start p b c) (stepLimit p) 0
  rwa [Nat.zero_add] at hruns

/-! ### The number of evaluations -/

/-- There is a best tiling, and there were no more evaluations than the budget
allows, but for the first one. -/
structure Within (s : Search) : Prop where
  best : ∃ c, s.best = some c
  evaluations : ∀ cap, s.budget.evaluations = some cap → s.evaluations ≤ max 1 cap

/-- A budget that is not spent allows one more evaluation. -/
lemma lt_of_lasts {cap : ℕ} (h : s.checkBudget.exhausted = false)
    (hcap : s.budget.evaluations = some cap) : s.evaluations < cap := by
  obtain ⟨-, hspent⟩ := Bool.or_eq_false_iff.mp h
  obtain ⟨-, hleft⟩ := Bool.or_eq_false_iff.mp hspent
  simpa [hcap] using hleft

lemma Within.checkBudget (h : s.Within) : s.checkBudget.Within := ⟨h.best, h.evaluations⟩

lemma Within.evaluate (h : s.Within) (hlasts : s.checkBudget.exhausted = false)
    (config : List ℕ) : (s.checkBudget.evaluate config).2.Within :=
  ⟨h.best, fun _ hcap => (Nat.succ_le_of_lt (lt_of_lasts hlasts hcap)).trans (le_max_right _ _)⟩

lemma Within.offer (h : s.Within) (candidate : Configuration) : (s.offer candidate).Within := by
  obtain ⟨best, hoffer⟩ := s.offer_eq candidate
  rw [hoffer]
  exact ⟨⟨best, rfl⟩, h.evaluations⟩

lemma Within.descend (h : s.Within) (count : ℕ) :
    (Search.descend count s).1.Begun ∧ (Search.descend count s).2.Within := by
  obtain ⟨⟨count', share, overrun, hdescend⟩, hstate⟩ := descend_eq s count
  rw [hdescend]
  refine ⟨?_, h.best, h.evaluations⟩
  rcases hstate with hdone | ⟨config, hconfig⟩
  · rw [hdone]
    exact trivial
  · rw [hconfig]
    exact trivial

/-- A step after the first keeps to the budget. -/
lemma Within.step (h : s.Within) (hstate : state.Begun) :
    (s.step state).1.Begun ∧ (s.step state).2.Within := by
  cases state with
  | init => exact hstate.elim
  | probe config =>
    rw [Search.step]
    split_ifs
    · exact ⟨trivial, h.checkBudget⟩
    · exact Within.descend (s := { s.checkBudget with truncated := true })
        ⟨h.best, h.evaluations⟩ _
    · split
      · exact ⟨trivial, h.checkBudget⟩
      · exact h.checkBudget.descend _
  | evaluate config =>
    rw [Search.step]
    split_ifs with hspent
    · exact ⟨trivial, h.checkBudget⟩
    · exact ⟨trivial, h.evaluate (Bool.not_eq_true _ ▸ hspent) config⟩
  | compare config candidate => exact ⟨trivial, h.offer candidate⟩
  | done => exact ⟨trivial, h⟩

/-- The first two steps evaluate and compare the greedy arrangement. -/
lemma within_after (p : Problem) (b : Budget) (c : Clock) (n : ℕ) :
    ((start p b c).after (n + 2)).1.Begun ∧ ((start p b c).after (n + 2)).2.Within := by
  induction n with
  | zero =>
    obtain ⟨best, hoffer⟩ := ((start p b c).after 1).2.offer_eq (p.evaluate p.greedy)
    refine ⟨trivial, ?_⟩
    change (((start p b c).after 1).2.offer (p.evaluate p.greedy)).Within
    rw [hoffer]
    exact ⟨⟨best, rfl⟩, fun _ _ => le_max_left _ _⟩
  | succ n ih => exact ih.2.step ih.1

/-- The result of a search with a best tiling is that one. -/
lemma Within.outcome (h : s.Within) : s.outcome.evaluations = s.evaluations := by
  obtain ⟨best, hbest⟩ := h.best
  rw [Search.outcome, hbest]

/-- The whole search keeps to its budget. -/
lemma within_exhaust (p : Problem) (b : Budget) (c : Clock) : (start p b c).exhaust.Within :=
  exhaust_eq p b c ▸ (within_after p b c (3 <<< p.size + 1)).2

/-- The search counts what it evaluates. -/
lemma evaluations_exhaustive [Surroundings] (p : Problem) (b : Budget) (c : Clock) :
    ((start p b c).run .exhaustive).evaluations =
      ((start p b c).evaluated (stepLimit p)).length := by
  change (start p b c).exhaust.outcome.evaluations = _
  rw [(within_exhaust p b c).outcome, exhaust_eq]
  exact (trail_after p b c _).counted

/-- The search evaluates all arrangements if it passes over none. -/
lemma evaluated_of_whole (hlasts : ((start p b c).after (stepLimit p)).2.exhausted = false)
    (hall : ((start p b c).after (stepLimit p)).2.truncated = false) :
    (start p b c).evaluated (stepLimit p) = p.fewer (p.greedy.length + 1) := by
  have hwhole := (trail_after p b c (stepLimit p)).whole hlasts hall
  rw [done_after] at hwhole
  exact (List.append_nil _).symm.trans hwhole

/-- The search evaluates all arrangements if its budget lasts. -/
lemma evaluated_of_lasts (htime : b.time ≠ 0) (hevaluations : b.evaluations = none) :
    (start p b).evaluated (stepLimit p) = p.fewer (p.greedy.length + 1) := by
  have hlasts : ((start p b).after (stepLimit p)).2.Lasts := by
    refine after_induct (P := fun _ _ t => t.Lasts) ⟨⟨rfl, htime⟩, hevaluations, rfl, rfl, rfl⟩
      ?_ _
    intro _ state t h
    exact h.step state
  exact evaluated_of_whole hlasts.exhausted hlasts.truncated

end Search

variable {grid : Grid} {shape : BlockShape}

/-- **The exhaustive search evaluates all arrangements, in order and once each.**
If its time is never up and there is no limit on the evaluations, the search ends
after some steps. Until then it evaluates the ascending lists of candidates that
have no cell in common, with at most as many as in the greedy arrangement: that one
first, those with more candidates before those with fewer, and those with as many in
lexicographic order. The result has their number. No step fails if the clock
can count the time. -/
theorem arrangements_of_exhaustive [Surroundings] (hgrid : 0 < grid.area) (hshape : 0 < shape.area)
    (hwords : grid.Counts shape) (ratio : Float) (table : ℕ × ℕ) (htime : b.time ≠ 0)
    (hevaluations : b.evaluations = none) :
    ∃ p, Problem.make grid shape ratio table = .ok p ∧
      (∃ n, ((Search.start p b).after n).1 = .done ∧
        ((Search.start p b).evaluated n).head? = some p.greedy ∧
        (∀ config, config ∈ (Search.start p b).evaluated n ↔
          config.length ≤ p.greedy.length ∧ config.Pairwise (· < ·) ∧
            (∀ i ∈ config, i < p.size) ∧ p.Separate config) ∧
        ((Search.start p b).evaluated n).Pairwise Problem.Precedes ∧
        ((Search.start p b).evaluated n).Nodup ∧
        ((Search.start p b).run .exhaustive).evaluations =
          ((Search.start p b).evaluated n).length) ∧
      (b.time < clockSpan → ∀ m, ((Search.start p b).after m).2.step?
        ((Search.start p b).after m).1 = some ((Search.start p b).after (m + 1))) := by
  obtain ⟨p, hmake⟩ := Problem.exists_make hgrid hshape ratio table
  have hall := Search.evaluated_of_lasts (p := p) htime hevaluations
  have hnumber := Search.evaluations_exhaustive p b .still
  refine ⟨p, hmake, ⟨Search.stepLimit p, Search.done_after p b .still, ?_, ?_, ?_, ?_, hnumber⟩,
    Search.step?_after⟩
  · obtain ⟨others, hgreedy⟩ := p.arrangements_greedy
    rw [hall, Problem.fewer_succ, hgreedy]
    rfl
  · intro config
    rw [hall, Problem.mem_fewer, Nat.lt_succ_iff, Ascends, and_assoc,
      Problem.apart_iff hmake hwords]
    simp only [Nat.zero_le, true_and]
  · rw [hall]
    exact p.fewer_precedes _
  · rw [hall]
    exact (p.fewer_precedes _).imp Problem.Precedes.ne

theorem arrangements_of_exhaustive_rotating :
    0 < (Grid.mk 3 4).area ∧ 0 < (BlockShape.mk 2 3).area ∧ (Grid.mk 3 4).Counts ⟨2, 3⟩ ∧
      anHour.time ≠ 0 ∧ anHour.evaluations = none ∧
      ∃ n, ((Search.start rotating anHour).after n).1 = .done ∧
        ((Search.start rotating anHour).evaluated n).head? = some [0] ∧
        [6] ∈ (Search.start rotating anHour).evaluated n ∧
        ∀ m, ((Search.start rotating anHour).after m).2.step?
          ((Search.start rotating anHour).after m).1 =
            some ((Search.start rotating anHour).after (m + 1)) := by
  have hgrid : 0 < (Grid.mk 3 4).area := by decide
  have hshape : 0 < (BlockShape.mk 2 3).area := by decide
  have hwords : (Grid.mk 3 4).Counts ⟨2, 3⟩ := by decide
  have htime : anHour.time ≠ 0 := by decide
  obtain ⟨p, hmake, ⟨n, hdone, hfirst, hall, -⟩, hsteps⟩ :=
    arrangements_of_exhaustive hgrid hshape hwords 1.0 (1, 1) htime rfl
  obtain rfl : rotating = p := Except.ok.inj (make_rotating.symm.trans hmake)
  have hsize : rotating.size = 7 := by decide +kernel
  refine ⟨hgrid, hshape, hwords, htime, rfl, n, hdone, greedy_rotating ▸ hfirst,
    (hall [6]).mpr ?_, hsteps (by decide)⟩
  rw [greedy_rotating, hsize]
  exact ⟨le_rfl, List.pairwise_singleton _ _, by decide, List.pairwise_singleton _ _⟩

/-- Two blocks that reach so far behind the grid that their far corners cannot be
counted. -/
def reachingTwice : Problem where
  grid := ⟨3, 1⟩
  cost := .weights 1.0 (2 ^ 32 - 1)
  table := (1, 1)
  candidates := #[⟨⟨1, 0, 2 ^ 32 - 1, 1⟩, false⟩, ⟨⟨2, 0, 2 ^ 32 - 1, 1⟩, false⟩]

/-- Not every search goes through the arrangements of blocks that have no cell in
common. One fails at its first step, as its time outlasts the clock, and one begins
with two blocks that do have cells in common. -/
theorem exhaustive_stumbles :
    (∃ p, Problem.make ⟨1, 1⟩ ⟨2, 2⟩ 1.0 (1, 1) = .ok p ∧
      (Search.start p ages).step? .init = none) ∧
    ∃ p, Problem.make ⟨3, 1⟩ ⟨2 ^ 32 - 1, 1⟩ 1.0 (1, 1) = .ok p ∧
      [0, 1] ∈ (Search.start p anHour).evaluated 1 ∧ ¬ p.Separate [0, 1] := by
  refine ⟨⟨oneCell, make_oneCell, ?_⟩, reachingTwice, rfl, by decide +kernel, by decide⟩
  exact Option.isNone_iff_eq_none.mp (by decide +kernel)

end Datapath.Tiling
