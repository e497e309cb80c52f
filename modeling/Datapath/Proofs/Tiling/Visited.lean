/-
What the exhaustive search looks at.

* `betterThan_trans`: being the better tiling is transitive.
* `SearchState.remaining`: the arrangements that are still to be looked at;
  `Search.step_advances`: one step compares the first of them at most, and
  passes over none if the budget lasts.
* `Search.descend_eq`, `Search.offer_eq`: what the parts of a step can change.
* `Search.BestOf`: the best of the tilings that were seen;
  `Search.BestOf.offer`: an offer keeps the best one.
* `Search.Unhurried`: there is time, and it is never up; `Search.lasts_exhaust`:
  without a limit on the evaluations, the budget lasts then.
* `Search.Covers`: what was seen and what remains are all arrangements, and the
  best tiling is the best of what was seen; `Search.Covers.step` for one step,
  `Search.covers_exhaust` for all of them.
-/
import Datapath.Proofs.Floats
import Datapath.Proofs.Tiling.Enumeration

namespace Datapath.Tiling

/-! ### Better tilings -/

lemma betterThan_iff {c d : Configuration} :
    c.betterThan d = true ↔
      c.cost < d.cost ∨ ((c.cost == d.cost) = true ∧ d.coveredArea < c.coveredArea) := by
  rw [Configuration.betterThan, Bool.or_eq_true, Bool.and_eq_true, decide_eq_true_eq,
    decide_eq_true_eq]

lemma betterThan_irrefl (c : Configuration) : c.betterThan c = false := by
  rw [← Bool.not_eq_true, betterThan_iff]
  rintro (hlt | ⟨-, harea⟩)
  · exact float_lt_irrefl _ hlt
  · exact lt_irrefl _ harea

lemma betterThan_trans {c d e : Configuration} (hcd : c.betterThan d = true)
    (hde : d.betterThan e = true) : c.betterThan e = true := by
  rw [betterThan_iff] at *
  rcases hcd with hcd | ⟨hcd, hareas⟩ <;> rcases hde with hde | ⟨hde, hareas'⟩
  · exact .inl (float_lt_trans hcd hde)
  · exact .inl (float_lt_of_lt_of_beq hcd hde)
  · exact .inl (float_lt_of_beq_of_lt hcd hde)
  · exact .inr ⟨PartialEquivBEq.trans hcd hde, hareas'.trans hareas⟩

variable {p : Problem} {s : Search} {state : SearchState} {count : ℕ}

/-! ### What remains to be looked at -/

namespace SearchState

/-- The arrangements that are still to be looked at, from a state with
arrangements of `count` candidates. -/
def remaining (p : Problem) (count : ℕ) : SearchState → List (List ℕ)
  | .init => p.fewer (p.greedy.length + 1)
  | .probe config => p.later count config ++ p.fewer count
  | .evaluate config => config :: (p.later count config ++ p.fewer count)
  | .compare config _ => config :: (p.later count config ++ p.fewer count)
  | .done => []

/-- The arrangement of the state has `count` candidates, and what is to be
compared is its tiling. -/
def At (p : Problem) (count : ℕ) : SearchState → Prop
  | .init => True
  | .probe config => config.length = count
  | .evaluate config => config.length = count
  | .compare config candidate => config.length = count ∧ candidate = p.evaluate config
  | .done => True

/-- The arrangement that is compared in a step from this state. -/
def compared : SearchState → List (List ℕ)
  | .compare config _ => [config]
  | _ => []

/-- A bound on the steps from a state: three for every arrangement that
remains. -/
def stepsLeft (p : Problem) (count : ℕ) (state : SearchState) : ℕ :=
  match state with
  | .init => 3 * (state.remaining p count).length + 1
  | .probe _ => 3 * (state.remaining p count).length + 1
  | .evaluate _ => 3 * (state.remaining p count).length
  | .compare _ _ => 3 * (state.remaining p count).length - 1
  | .done => 0

end SearchState

namespace Search

/-- The next lower number of candidates: all arrangements of fewer candidates
remain. -/
lemma descend_remaining (hproblem : s.problem = p) (count : ℕ) :
    (descend count s).1.remaining p (descend count s).2.count = p.fewer count ∧
      (descend count s).1.At p (descend count s).2.count ∧
      (descend count s).1.stepsLeft p (descend count s).2.count ≤ 3 * (p.fewer count).length := by
  induction count generalizing s with
  | zero => exact ⟨rfl, trivial, le_rfl⟩
  | succ count ih =>
    rw [descend]
    rw [show (s.startLevel count).problem = p from hproblem, Problem.complete?_eq]
    cases harrangements : p.arrangements [] 0 count with
    | nil =>
      have hsame : p.fewer (count + 1) = p.fewer count := by
        rw [Problem.fewer_succ, harrangements, List.nil_append]
      rw [hsame]
      exact ih hproblem
    | cons config others =>
      have hlater := Problem.later_of_arrangements harrangements
      have hmem : config ∈ p.arrangements [] 0 count := harrangements ▸ List.mem_cons_self
      have hlength : config.length = count := by
        rw [Problem.length_of_mem_arrangements hmem, List.length_nil, Nat.zero_add]
      have hremaining : (SearchState.evaluate config).remaining p count = p.fewer (count + 1) := by
        rw [SearchState.remaining, hlater, Problem.fewer_succ, harrangements, List.cons_append]
      exact ⟨hremaining, hlength, (congrArg (3 * ·.length) hremaining).le⟩

/-- Going down changes nothing but the number of candidates and its share. The
search ends there or goes on to evaluate an arrangement. -/
lemma descend_eq (s : Search) (count : ℕ) :
    (∃ count' share overrun, (descend count s).2 = { s with count := count', share, overrun }) ∧
      ((descend count s).1 = .done ∨ ∃ config, (descend count s).1 = .evaluate config) := by
  induction count generalizing s with
  | zero => exact ⟨⟨_, _, _, rfl⟩, .inl rfl⟩
  | succ count ih =>
    rw [descend]
    split
    · exact ⟨⟨_, _, _, rfl⟩, .inr ⟨_, rfl⟩⟩
    · exact ih (s.startLevel count)

lemma descend_keeps (s : Search) (count : ℕ) :
    (descend count s).2.problem = s.problem ∧ (descend count s).2.best = s.best ∧
      (descend count s).2.exhausted = s.exhausted ∧
      (descend count s).2.truncated = s.truncated := by
  obtain ⟨⟨count', share, overrun, hdescend⟩, -⟩ := descend_eq s count
  rw [hdescend]
  exact ⟨rfl, rfl, rfl, rfl⟩

/-- An offer changes nothing but the best tiling. -/
lemma offer_eq (s : Search) (candidate : Configuration) :
    ∃ best, s.offer candidate = { s with best := some best } := by
  rw [offer]
  cases hbest : s.best with
  | none => exact ⟨candidate, rfl⟩
  | some best =>
    by_cases hbetter : candidate.betterThan best = true
    · exact ⟨candidate, if_pos hbetter⟩
    · refine ⟨best, (if_neg hbetter).trans ?_⟩
      rw [← hbest]

lemma offer_keeps (s : Search) (candidate : Configuration) :
    (s.offer candidate).problem = s.problem ∧ (s.offer candidate).count = s.count ∧
      (s.offer candidate).exhausted = s.exhausted ∧
      (s.offer candidate).truncated = s.truncated := by
  obtain ⟨best, hoffer⟩ := s.offer_eq candidate
  rw [hoffer]
  exact ⟨rfl, rfl, rfl, rfl⟩

/-- What a step from `state` to `next` does with the arrangements that remain:
it compares the first one at most, and passes over some, but over none if it
keeps to the budget. -/
structure Advances (p : Problem) (state : SearchState) (count : ℕ) (next : SearchState)
    (s : Search) : Prop where
  arrangement : next.At p s.count
  stepsLeft : next.stepsLeft p s.count ≤ state.stepsLeft p count - 1
  remaining : ∃ skipped,
    state.remaining p count = state.compared ++ (skipped ++ next.remaining p s.count) ∧
      (s.exhausted = false → s.truncated = false → skipped = [])

/-- A step may pass over all arrangements if the budget is spent. -/
lemma Advances.spent (h : s.exhausted = true) (hnone : state.compared = []) :
    Advances p state count .done s := by
  refine ⟨trivial, Nat.zero_le _, state.remaining p count, ?_, ?_⟩
  · rw [hnone, SearchState.remaining, List.append_nil]
    rfl
  · intro hlasts
    rw [h] at hlasts
    cases hlasts

/-- A step that passes over nothing. -/
lemma Advances.of_remaining {next : SearchState} (harrangement : next.At p s.count)
    (hsteps : next.stepsLeft p s.count ≤ state.stepsLeft p count - 1)
    (hremaining : state.remaining p count = state.compared ++ next.remaining p s.count) :
    Advances p state count next s :=
  ⟨harrangement, hsteps, [], hremaining, fun _ _ => rfl⟩

/-- A step to lower numbers of candidates. -/
lemma Advances.descend {config : List ℕ} (hproblem : s.problem = p)
    (hlast : s.truncated = false → p.later count config = []) :
    Advances p (.probe config) count (Search.descend count s).1 (Search.descend count s).2 := by
  obtain ⟨hremaining, hat, hsteps⟩ := descend_remaining hproblem count
  obtain ⟨-, -, -, htruncated⟩ := descend_keeps s count
  refine ⟨hat, ?_, p.later count config, ?_, ?_⟩
  · refine hsteps.trans ?_
    simp only [SearchState.stepsLeft, SearchState.remaining, List.length_append]
    omega
  · rw [hremaining]
    rfl
  · intro _ hall
    exact hlast (htruncated.symm.trans hall)

/-- Every step looks at the arrangements that remain in order. -/
lemma step_advances (hproblem : s.problem = p) (hat : state.At p s.count) :
    Advances p state s.count (s.step state).1 (s.step state).2 := by
  cases state with
  | init =>
    obtain ⟨others, hgreedy⟩ := p.arrangements_greedy
    have hremaining : SearchState.init.remaining p s.count =
        p.greedy :: (p.later p.greedy.length p.greedy ++ p.fewer p.greedy.length) := by
      rw [SearchState.remaining, Problem.fewer_succ, hgreedy,
        Problem.later_of_arrangements hgreedy, List.cons_append]
    subst hproblem
    refine .of_remaining ⟨rfl, rfl⟩ ?_ hremaining
    simp only [SearchState.stepsLeft, hremaining]
    exact Nat.sub_le _ 1
  | probe config =>
    rw [step]
    split_ifs with hexhausted hshare
    · exact .spent hexhausted rfl
    · exact .descend hproblem fun hall => nomatch hall
    · have hsuccessor : s.checkBudget.problem.successor? s.checkBudget.count config =
          (p.later s.count config).head? := by
        rw [← Problem.successor?_eq hat, ← hproblem]
        rfl
      rw [hsuccessor]
      cases hlater : p.later s.count config with
      | nil => exact .descend hproblem fun _ => hlater
      | cons next others =>
        have hremaining : (SearchState.probe config).remaining p s.count =
            (SearchState.evaluate next).remaining p s.count := by
          rw [SearchState.remaining, SearchState.remaining, Problem.later_of_later hlater, hlater,
            List.cons_append]
        have hmem : next ∈ p.later s.count config := hlater ▸ List.mem_cons_self
        refine .of_remaining (Problem.length_of_mem_later hmem) ?_ hremaining
        simp only [SearchState.stepsLeft, hremaining, Nat.add_sub_cancel]
        exact le_rfl
  | evaluate config =>
    rw [step]
    split_ifs with hexhausted
    · exact .spent hexhausted rfl
    · exact .of_remaining ⟨hat, hproblem ▸ rfl⟩ le_rfl rfl
  | compare config candidate =>
    obtain ⟨-, hcount, -⟩ := s.offer_keeps candidate
    refine .of_remaining (hat.1.trans hcount.symm) ?_ ?_
    · change (SearchState.probe config).stepsLeft p (s.offer candidate).count ≤ _
      rw [hcount]
      simp only [SearchState.stepsLeft, SearchState.remaining, List.length_cons]
      omega
    · change _ = [config] ++ (SearchState.probe config).remaining p (s.offer candidate).count
      rw [hcount]
      rfl
  | done => exact .of_remaining trivial (Nat.zero_le _) rfl

/-- A step changes the best tiling only where it compares, and what it knows of
a spent budget it does not forget. -/
lemma step_keeps (s : Search) (state : SearchState) :
    (s.step state).2.problem = s.problem ∧
      (state.compared = [] → (s.step state).2.best = s.best) ∧
      ((s.step state).2.exhausted = false → s.exhausted = false) ∧
      ((s.step state).2.truncated = false → s.truncated = false) := by
  have hchecked : s.checkBudget.exhausted = false → s.exhausted = false := fun h =>
    (Bool.or_eq_false_iff.mp h).1
  cases state with
  | init => exact ⟨rfl, fun _ => rfl, id, id⟩
  | probe config =>
    rw [step]
    split_ifs
    · exact ⟨rfl, fun _ => rfl, hchecked, id⟩
    · obtain ⟨hproblem, hbest, hexhausted, htruncated⟩ :=
        descend_keeps { s.checkBudget with truncated := true } s.count
      exact ⟨hproblem, fun _ => hbest, fun h => hchecked (hexhausted ▸ h),
        fun h => nomatch htruncated ▸ h⟩
    · split
      · exact ⟨rfl, fun _ => rfl, hchecked, id⟩
      · obtain ⟨hproblem, hbest, hexhausted, htruncated⟩ := descend_keeps s.checkBudget s.count
        exact ⟨hproblem, fun _ => hbest, fun h => hchecked (hexhausted ▸ h),
          fun h => htruncated ▸ h⟩
  | evaluate config =>
    rw [step]
    split_ifs
    · exact ⟨rfl, fun _ => rfl, hchecked, id⟩
    · exact ⟨rfl, fun _ => rfl, hchecked, id⟩
  | compare config candidate =>
    obtain ⟨hproblem, -, hexhausted, htruncated⟩ := s.offer_keeps candidate
    refine ⟨hproblem, fun h => (nomatch h), ?_, ?_⟩
    · exact fun h => hexhausted.symm.trans h
    · exact fun h => htruncated.symm.trans h
  | done => exact ⟨rfl, fun _ => rfl, id, id⟩

/-! ### The best of what was seen -/

/-- The best tiling so far is one of those that were seen, and none of them is
better. -/
structure BestOf (p : Problem) (best : Option Configuration) (seen : List (List ℕ)) : Prop where
  mem : ∀ c, best = some c → ∃ config ∈ seen, c = p.evaluate config
  unbeaten : ∀ config ∈ seen, ∃ c, best = some c ∧ (p.evaluate config).betterThan c = false

lemma BestOf.nil (p : Problem) : BestOf p none [] :=
  ⟨fun _ h => (nomatch h), fun _ h => absurd h List.not_mem_nil⟩

lemma BestOf.offer {seen : List (List ℕ)} (h : BestOf p s.best seen) (config : List ℕ) :
    BestOf p (s.offer (p.evaluate config)).best (seen ++ [config]) := by
  have hlast : config ∈ seen ++ [config] := by simp
  rw [Search.offer]
  cases hbest : s.best with
  | none =>
    have hnone : seen = [] := by
      refine List.eq_nil_iff_forall_not_mem.mpr ?_
      intro c hc
      obtain ⟨b, hb, -⟩ := h.unbeaten c hc
      rw [hbest] at hb
      cases hb
    subst hnone
    refine ⟨fun c hc => ⟨config, hlast, (Option.some.inj hc).symm⟩, ?_⟩
    intro c hc
    rw [List.mem_singleton.mp hc]
    exact ⟨_, rfl, betterThan_irrefl _⟩
  | some best =>
    have hold : ∀ c ∈ seen, (p.evaluate c).betterThan best = false := by
      intro c hc
      obtain ⟨b, hb, hworse⟩ := h.unbeaten c hc
      cases hbest.symm.trans hb
      exact hworse
    dsimp only
    split_ifs with hbetter
    · refine ⟨fun c hc => ⟨config, hlast, (Option.some.inj hc).symm⟩, ?_⟩
      intro c hc
      refine ⟨_, rfl, ?_⟩
      rcases List.mem_append.mp hc with hc | hc
      · -- what beats the new best tiling beats the old one
        by_contra hbeats
        have hboth := betterThan_trans (Bool.not_eq_false _ ▸ hbeats) hbetter
        rw [hold c hc] at hboth
        cases hboth
      · rw [List.mem_singleton.mp hc]
        exact betterThan_irrefl _
    · rw [hbest]
      refine ⟨?_, ?_⟩
      · intro c hc
        obtain ⟨old, hmem, hc⟩ := h.mem c (hbest.trans hc)
        exact ⟨old, List.mem_append_left _ hmem, hc⟩
      · intro c hc
        refine ⟨best, rfl, ?_⟩
        rcases List.mem_append.mp hc with hc | hc
        · exact hold c hc
        · rw [List.mem_singleton.mp hc]
          simpa using hbetter

/-- If the budget lasts so far, what was seen and what remains are all
arrangements, and the best tiling is the best of what was seen. -/
structure Covers (p : Problem) (s : Search) (state : SearchState) : Prop where
  problem : s.problem = p
  arrangement : state.At p s.count
  seen : s.exhausted = false → s.truncated = false →
    ∃ seen, p.fewer (p.greedy.length + 1) = seen ++ state.remaining p s.count ∧
      BestOf p s.best seen

lemma Covers.start (p : Problem) (b : Budget) (c : Clock) : Covers p (Search.start p b c) .init :=
  ⟨rfl, trivial, fun _ _ => ⟨[], rfl, .nil p⟩⟩

/-- One step keeps that. -/
lemma Covers.step (h : Covers p s state) : Covers p (s.step state).2 (s.step state).1 := by
  have hadvances := step_advances h.problem h.arrangement
  obtain ⟨hproblem, hbest, hexhausted, htruncated⟩ := s.step_keeps state
  refine ⟨hproblem.trans h.problem, hadvances.arrangement, ?_⟩
  intro hlasts hall
  obtain ⟨seen, hseen, hbestOf⟩ := h.seen (hexhausted hlasts) (htruncated hall)
  obtain ⟨skipped, hremaining, hnone⟩ := hadvances.remaining
  refine ⟨seen ++ state.compared, ?_, ?_⟩
  · rw [hseen, hremaining, hnone hlasts hall, List.nil_append, List.append_assoc]
  · cases state with
    | compare config candidate =>
      obtain ⟨-, rfl⟩ := h.arrangement
      exact hbestOf.offer config
    | _ =>
      rw [hbest rfl]
      exact (List.append_nil seen).symm ▸ hbestOf

/-- Only a search that is done has no steps left. -/
lemma eq_done_of_stepsLeft (h : state.stepsLeft p count = 0) : state = .done := by
  cases state <;> simp [SearchState.stepsLeft, SearchState.remaining] at h
  · omega
  · rfl

/-- There are enough steps for all arrangements. -/
lemma stepsLeft_init (p : Problem) (count : ℕ) :
    SearchState.init.stepsLeft p count ≤ stepLimit p := by
  have hlength : (p.fewer (p.greedy.length + 1)).length ≤ 2 ^ p.size :=
    p.length_fewerFrom [] 0 (p.greedy.length + 1)
  rw [stepLimit, Nat.shiftLeft_eq]
  change 3 * (p.fewer (p.greedy.length + 1)).length + 1 ≤ 3 * 2 ^ p.size + 3
  omega

/-- Enough steps leave nothing to be looked at. -/
lemma Covers.runSteps (h : Covers p s state) (limit : ℕ)
    (hlimit : state.stepsLeft p s.count ≤ limit) :
    Covers p (Search.runSteps limit state s) .done := by
  induction limit generalizing state s with
  | zero =>
    obtain rfl := eq_done_of_stepsLeft (Nat.eq_zero_of_le_zero hlimit)
    exact h
  | succ limit ih =>
    have hsteps := (step_advances h.problem h.arrangement).stepsLeft
    cases hstate : state with
    | done =>
      rw [hstate] at h
      exact h
    | _ =>
      subst hstate
      exact ih h.step (hsteps.trans (by omega))

/-- The exhaustive search leaves nothing to be looked at. -/
lemma covers_exhaust (p : Problem) (b : Budget) (c : Clock) :
    Covers p (Search.start p b c).exhaust .done :=
  (Covers.start p b c).runSteps _ (stepsLeft_init p _)

/-! ### Budgets without end -/

/-- A step changes neither the clock nor the budget. -/
lemma step_setting (s : Search) (state : SearchState) :
    (s.step state).2.clock = s.clock ∧ (s.step state).2.budget = s.budget := by
  have hdescend : ∀ (t : Search) (count : ℕ),
      (descend count t).2.clock = t.clock ∧ (descend count t).2.budget = t.budget := by
    intro t count
    obtain ⟨⟨_, _, _, ht⟩, -⟩ := descend_eq t count
    rw [ht]
    exact ⟨rfl, rfl⟩
  cases state with
  | init => exact ⟨rfl, rfl⟩
  | probe config =>
    rw [step]
    split_ifs
    · exact ⟨rfl, rfl⟩
    · exact hdescend { s.checkBudget with truncated := true } _
    · split
      · exact ⟨rfl, rfl⟩
      · exact hdescend s.checkBudget _
  | evaluate config =>
    rw [step]
    split_ifs <;> exact ⟨rfl, rfl⟩
  | compare config candidate =>
    obtain ⟨best, hoffer⟩ := s.offer_eq candidate
    rw [step, hoffer]
    exact ⟨rfl, rfl⟩
  | done => exact ⟨rfl, rfl⟩

/-- There is time, and it is never up. -/
structure Unhurried (s : Search) : Prop where
  clock : s.clock = .still
  time : s.budget.time ≠ 0

lemma Unhurried.step (h : s.Unhurried) (state : SearchState) : (s.step state).2.Unhurried := by
  obtain ⟨hclock, hbudget⟩ := s.step_setting state
  exact ⟨hclock.trans h.clock, hbudget ▸ h.time⟩

/-- There is time, which is never up, and no limit on the number of
evaluations. -/
structure Lasts (s : Search) : Prop extends Unhurried s where
  evaluations : s.budget.evaluations = none
  share : s.share = none
  exhausted : s.exhausted = false
  truncated : s.truncated = false

lemma Lasts.checkBudget (h : s.Lasts) : s.checkBudget.Lasts := by
  refine ⟨⟨h.clock, h.time⟩, h.evaluations, h.share, ?_, h.truncated⟩
  simp [Search.checkBudget, spent, h.exhausted, h.clock, Clock.still, h.time, h.evaluations]

lemma Lasts.startLevel (h : s.Lasts) (count : ℕ) : (s.startLevel count).Lasts := by
  refine ⟨⟨h.clock, h.time⟩, h.evaluations, ?_, h.exhausted, h.truncated⟩
  simp [Search.startLevel, h.evaluations]

lemma Lasts.descend (h : s.Lasts) (count : ℕ) : (Search.descend count s).2.Lasts := by
  induction count generalizing s with
  | zero => exact h
  | succ count ih =>
    rw [Search.descend]
    split
    · exact h.startLevel count
    · exact ih (h.startLevel count)

lemma Lasts.step (h : s.Lasts) (state : SearchState) : (s.step state).2.Lasts := by
  have hchecked := h.checkBudget
  cases state with
  | init =>
    have hlevel := h.startLevel s.problem.greedy.length
    exact ⟨⟨hlevel.clock, hlevel.time⟩, hlevel.evaluations, hlevel.share, hlevel.exhausted,
      hlevel.truncated⟩
  | probe config =>
    have hshare : s.checkBudget.shareSpent = false := by
      simp [shareSpent, hchecked.clock, Clock.still, hchecked.share]
    rw [Search.step, hchecked.exhausted, hshare]
    rw [if_neg Bool.false_ne_true, if_neg Bool.false_ne_true]
    split
    · exact hchecked
    · exact hchecked.descend _
  | evaluate config =>
    rw [Search.step, hchecked.exhausted]
    exact ⟨⟨hchecked.clock, hchecked.time⟩, hchecked.evaluations, hchecked.share,
      hchecked.exhausted, hchecked.truncated⟩
  | compare config candidate =>
    rw [Search.step, offer]
    split
    · split_ifs
      · exact ⟨⟨h.clock, h.time⟩, h.evaluations, h.share, h.exhausted, h.truncated⟩
      · exact h
    · exact ⟨⟨h.clock, h.time⟩, h.evaluations, h.share, h.exhausted, h.truncated⟩
  | done => exact h

lemma Lasts.runSteps (h : s.Lasts) (limit : ℕ) (state : SearchState) :
    (Search.runSteps limit state s).Lasts := by
  induction limit generalizing state s with
  | zero => exact h
  | succ limit ih =>
    have hnext := h.step state
    cases hstate : state with
    | done => exact h
    | _ =>
      rw [hstate] at hnext
      exact ih hnext _

/-- A search without a limit whose time is never up is not cut short. -/
lemma lasts_exhaust {b : Budget} (htime : b.time ≠ 0) (hevaluations : b.evaluations = none) :
    (Search.start p b).exhaust.outcome.budgetExhausted = false := by
  have hstart : (Search.start p b).Lasts := ⟨⟨rfl, htime⟩, hevaluations, rfl, rfl, rfl⟩
  have hlasts : (Search.start p b).exhaust.Lasts := hstart.runSteps _ _
  rw [outcome]
  split <;> exact Bool.or_eq_false_iff.mpr ⟨hlasts.exhausted, hlasts.truncated⟩

end Search

end Datapath.Tiling
