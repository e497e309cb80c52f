/-
A search keeps the best tiling that it evaluated, whatever ends it.

* `Search.Keeps`: the best tiling so far is the best of those that were seen, and
  the search counted them; `Search.Keeps.propose`: one more evaluation and offer.
* `Search.Follows`: the exhaustive search has the best of what it evaluated, whatever
  the clock says; `Search.Follows.step` for one step, `Search.follows_after` for some.
* `Walk.Leads`: proposals one after the other, at any temperatures and ended by
  anything; `Walk.leads_cool`: those of a walk that cools down.
* `unbeaten_of_search`: so the result of either strategy is one of the tilings that
  were evaluated, and none of these is better.
-/
import Datapath.Proofs.Tiling.Trace

namespace Datapath.Tiling

open Datapath.Random (Source)

variable {p : Problem} {b : Budget} {c : Clock} {s : Search} {state : SearchState}
  {seen earlier : List (List ℕ)}

/-! ### The best so far -/

/-- The result is the best of the arrangements that were evaluated, which are
counted. The greedy one is the first of them. -/
structure Outcome.Keeps (p : Problem) (seen : List (List ℕ)) (o : Outcome) : Prop where
  best : ∃ config ∈ seen, o.best = p.evaluate config
  unbeaten : ∀ config ∈ seen, (p.evaluate config).betterThan o.best = false
  counted : o.evaluations = seen.length
  greedy : seen.head? = some p.greedy

namespace Search

/-- The search has the best of the arrangements that were seen, and counted
them. -/
structure Keeps (p : Problem) (seen : List (List ℕ)) (s : Search) : Prop where
  problem : s.problem = p
  counted : s.evaluations = seen.length
  best : BestOf p s.best seen

lemma Keeps.checkBudget (h : s.Keeps p seen) : s.checkBudget.Keeps p seen :=
  ⟨h.problem, h.counted, h.best⟩

/-- An arrangement that is evaluated and offered is one more to keep the best
of. -/
lemma Keeps.propose (h : s.Keeps p seen) (config : List ℕ) :
    ((s.evaluate config).2.offer (s.evaluate config).1).Keeps p (seen ++ [config]) := by
  obtain ⟨best, hoffer⟩ := (s.evaluate config).2.offer_eq (s.evaluate config).1
  have hbest : BestOf p ((s.evaluate config).2.offer (p.evaluate config)).best
      (seen ++ [config]) := BestOf.offer (s := (s.evaluate config).2) h.best config
  have hvalue : (s.evaluate config).1 = p.evaluate config :=
    congrArg (Problem.evaluate · config) h.problem
  refine ⟨?_, ?_, hvalue ▸ hbest⟩
  · rw [hoffer]
    exact h.problem
  · rw [hoffer, List.length_append, List.length_singleton, ← h.counted]
    rfl

/-- What the search holds for the best is what it returns. -/
lemma Keeps.outcome (h : s.Keeps p seen) (hgreedy : seen.head? = some p.greedy) :
    s.outcome.Keeps p seen := by
  have hfirst : p.greedy ∈ seen := List.mem_of_head? hgreedy
  obtain ⟨best, hbest, -⟩ := h.best.unbeaten _ hfirst
  have hresult : s.outcome = ⟨best, s.evaluations, s.exhausted || s.truncated, s.overrun⟩ := by
    rw [Search.outcome, hbest]
  rw [hresult]
  refine ⟨h.best.mem best hbest, ?_, h.counted, hgreedy⟩
  intro config hconfig
  obtain ⟨_, hsame, hworse⟩ := h.best.unbeaten config hconfig
  cases hbest.symm.trans hsame
  exact hworse

end Search

/-! ### The exhaustive search -/

namespace Search

/-- On its trail, the search has the best of what was evaluated earlier, that is,
of everything apart from what is about to be compared. -/
structure Follows (p : Problem) (seen : List (List ℕ)) (state : SearchState) (s : Search) : Prop
    extends Trail p seen state s where
  best : ∃ earlier, seen = earlier ++ state.compared ∧ BestOf p s.best earlier

lemma Follows.start (p : Problem) (b : Budget) (c : Clock) :
    Follows p [] .init (Search.start p b c) :=
  ⟨.start p b c, [], rfl, .nil p⟩

/-- After a step, the best so far is the best of what was evaluated before it. -/
lemma Follows.step (h : Follows p seen state s) :
    Follows p (seen ++ (s.step state).1.compared) (s.step state).1 (s.step state).2 := by
  obtain ⟨earlier, hseen, hbestOf⟩ := h.best
  obtain ⟨-, hbest, -, -⟩ := s.step_keeps state
  refine ⟨h.toTrail.step, seen, rfl, ?_⟩
  rw [hseen]
  cases state with
  | compare config candidate =>
    obtain ⟨-, rfl⟩ := h.arrangement
    exact hbestOf.offer config
  | _ =>
    rw [hbest rfl]
    exact (List.append_nil earlier).symm ▸ hbestOf

/-- After any number of steps. -/
lemma follows_after (p : Problem) (b : Budget) (c : Clock) (n : ℕ) :
    Follows p ((start p b c).evaluated n) ((start p b c).after n).1
      ((start p b c).after n).2 :=
  after_induct (.start p b c) (fun _ _ _ h => h.step) n

/-- The greedy arrangement is evaluated first. -/
lemma head?_evaluated (p : Problem) (b : Budget) (c : Clock) (n : ℕ) :
    ((start p b c).evaluated (n + 1)).head? = some p.greedy := by
  induction n with
  | zero => rfl
  | succ n ih => rw [evaluated, List.head?_append, ih, Option.some_or]

/-- At its end, the search has the best of all that it evaluated. -/
lemma keeps_exhaust (p : Problem) (b : Budget) (c : Clock) :
    (start p b c).exhaust.outcome.Keeps p ((start p b c).evaluated (stepLimit p)) := by
  have hfollows := follows_after p b c (stepLimit p)
  obtain ⟨earlier, hseen, hbest⟩ := hfollows.best
  rw [done_after] at hseen
  have hall : (start p b c).evaluated (stepLimit p) = earlier :=
    hseen.trans (List.append_nil earlier)
  rw [exhaust_eq]
  exact Keeps.outcome ⟨hfollows.problem, hfollows.counted, hall ▸ hbest⟩
    (head?_evaluated p b c _)

end Search

/-! ### Random walks -/

namespace Walk

variable {σ : Type} {source : Source σ} {w w' w'' : Walk σ} {seen' : List (List ℕ)}

/-- The arrangement that is evaluated in the next move, if one is found. -/
def proposed (source : Source σ) (w : Walk σ) : List (List ℕ) :=
  (neighbour source w.search.problem w.current w.random).1.toList

/-- The arrangements that are evaluated in some moves at a temperature. -/
def movesProposed (source : Source σ) (temperature : Float) : (count : ℕ) → Walk σ → List (List ℕ)
  | 0, _ => []
  | count + 1, w =>
    let w := { w with search := w.search.checkBudget }
    if w.search.exhausted then []
    else w.proposed source ++ movesProposed source temperature count (w.move source temperature).2

/-- The arrangements that are evaluated while the walk cools down. -/
def coolProposed (source : Source σ) (perTemperature : ℕ) :
    (coolings : ℕ) → (temperature : Float) → Walk σ → List (List ℕ)
  | 0, _, _ => []
  | coolings + 1, temperature, w =>
    if temperature > frozen then
      let (accepted, spent, w') := w.moves source temperature perTemperature 0
      w.movesProposed source temperature perTemperature ++
        if spent || Float.ofNat accepted / Float.ofNat perTemperature < 0.001 then []
        else coolProposed source perTemperature coolings (temperature * cooling) w'
    else []

/-- Moves and looks at the budget lead from one walk to another, with the
arrangements that are evaluated on the way. The temperatures do not matter, nor
what ends the walk. -/
inductive Leads (source : Source σ) : Walk σ → List (List ℕ) → Walk σ → Prop
  | stay (w : Walk σ) : Leads source w [] w
  | check {w w' : Walk σ} {seen : List (List ℕ)}
      (rest : Leads source { w with search := w.search.checkBudget } seen w') :
      Leads source w seen w'
  | move {w w' : Walk σ} {seen : List (List ℕ)} (temperature : Float)
      (rest : Leads source (w.move source temperature).2 seen w') :
      Leads source w (w.proposed source ++ seen) w'

lemma Leads.append (h : Leads source w seen w') (h' : Leads source w' seen' w'') :
    Leads source w (seen ++ seen') w'' := by
  induction h with
  | stay w => exact h'
  | check rest ih => exact .check (ih h')
  | move temperature rest ih =>
    rw [List.append_assoc]
    exact .move temperature (ih h')

lemma leads_moves (source : Source σ) (temperature : Float) (count accepted : ℕ) (w : Walk σ) :
    Leads source w (w.movesProposed source temperature count)
      (moves source temperature count accepted w).2.2 := by
  induction count generalizing accepted w with
  | zero => exact .stay w
  | succ count ih =>
    refine .check ?_
    rw [movesProposed, moves]
    dsimp only
    split_ifs
    · exact .stay _
    all_goals exact .move temperature (ih _ _)

/-- A walk that cools down makes some proposals. -/
lemma leads_cool (source : Source σ) (perTemperature coolings : ℕ) (temperature : Float)
    (w : Walk σ) :
    Leads source w (w.coolProposed source perTemperature coolings temperature)
      (w.cool source perTemperature coolings temperature) := by
  induction coolings generalizing temperature w with
  | zero => exact .stay w
  | succ coolings ih =>
    have hmoves := leads_moves source temperature perTemperature 0 w
    rw [coolProposed, cool]
    dsimp only
    split_ifs
    · rw [List.append_nil]
      exact hmoves
    · exact hmoves.append (ih _ _)
    · exact .stay w

/-- A move keeps the best of what was evaluated, also if the walk does not follow
the proposal. -/
lemma keeps_move (h : w.search.Keeps p seen) (temperature : Float) :
    (w.move source temperature).2.search.Keeps p (seen ++ w.proposed source) := by
  rw [move, proposed]
  rcases neighbour source w.search.problem w.current w.random with ⟨_ | next, random⟩
  · exact (List.append_nil seen).symm ▸ h
  · have hoffer := h.propose next
    dsimp only
    split_ifs
    all_goals exact hoffer

/-- Whatever ends a walk, it has the best of what was evaluated on the way. -/
lemma Leads.keeps (h : Leads source w seen w') (hkeeps : w.search.Keeps p earlier) :
    w'.search.Keeps p (earlier ++ seen) := by
  induction h generalizing earlier with
  | stay w => exact (List.append_nil earlier).symm ▸ hkeeps
  | check rest ih => exact ih hkeeps.checkBudget
  | move temperature rest ih =>
    rw [← List.append_assoc]
    exact ih (keeps_move hkeeps temperature)

lemma keeps_first (p : Problem) (b : Budget) (c : Clock) (random : σ) :
    (first (Search.start p b c) random).search.Keeps p [p.greedy] :=
  Search.Keeps.propose (s := Search.start p b c) ⟨rfl, rfl, .nil p⟩ p.greedy

/-- A walk from the greedy arrangement has a result, whatever ends it. -/
lemma Leads.outcome {random : σ} (h : Leads source (first (Search.start p b c) random) seen w) :
    w.search.outcome.Keeps p (p.greedy :: seen) :=
  (h.keeps (keeps_first p b c random)).outcome rfl

end Walk

/-- The arrangements that the search by a random walk evaluates. -/
def annealed {σ : Type} (source : Source σ) (random : σ) (s : Search) : List (List ℕ) :=
  s.problem.greedy ::
    if s.problem.candidates.isEmpty then []
    else (Walk.first s random).coolProposed source (10 * (s.problem.greedy.length + 1))
      maxCoolings (2.0 * s.problem.cost.block)

/-- A random walk has the best of what it evaluated. -/
lemma keeps_anneal {σ : Type} (source : Source σ) (random : σ) (p : Problem) (b : Budget)
    (c : Clock) : (anneal source random (Search.start p b c)).outcome.Keeps p
      (annealed source random (Search.start p b c)) := by
  rw [Walk.anneal_eq, annealed]
  split_ifs
  · exact (Walk.Leads.stay (Walk.first (Search.start p b c) random) :
      Walk.Leads source _ _ _).outcome
  · exact (Walk.leads_cool source _ _ _ _).outcome

variable {grid : Grid} {shape : BlockShape}

/-- **The best is kept.** The result of a search is one of the tilings that were
evaluated, the first of which is the greedy one, and none of them is better. This
holds of the exhaustive search on every clock, which ends it or the turn of a number
of blocks at any look, and it ends in any case. It holds of a random walk with
any random choices, and no matter after which moves and at which temperatures it
ends. There is a result if the clock can count the time. -/
theorem unbeaten_of_search [Surroundings] (hgrid : 0 < grid.area) (hshape : 0 < shape.area)
    (ratio : Float) (table : ℕ × ℕ) (b : Budget) (clock : Clock) :
    ∃ p, Problem.make grid shape ratio table = .ok p ∧
      (∃ n, ((Search.start p b clock).after n).1 = .done ∧
        ((Search.start p b clock).run .exhaustive).Keeps p
          ((Search.start p b clock).evaluated n)) ∧
      (∀ seed : UInt64, ((Search.start p b clock).run (.annealing seed)).Keeps p
        (annealed Surroundings.choices (Surroundings.ofSeed seed) (Search.start p b clock))) ∧
      (∀ (σ : Type) (source : Source σ) (random : σ),
        (anneal source random (Search.start p b clock)).outcome.Keeps p
          (annealed source random (Search.start p b clock)) ∧
        ∀ seen w, Walk.Leads source (Walk.first (Search.start p b clock) random) seen w →
          w.search.outcome.Keeps p (p.greedy :: seen)) ∧
      (b.time < clockSpan →
        (∀ strategy, ((Search.start p b clock).run strategy).overrun = false) ∧
        ∀ n, ((Search.start p b clock).after n).2.overrun = false) := by
  obtain ⟨p, hmake⟩ := Problem.exists_make hgrid hshape ratio table
  refine ⟨p, hmake, ⟨Search.stepLimit p, Search.done_after p b clock,
    Search.keeps_exhaust p b clock⟩, fun seed => keeps_anneal _ _ p b clock, ?_, ?_⟩
  · exact fun σ source random => ⟨keeps_anneal source random p b clock, fun _ _ h => h.outcome⟩
  · intro htime
    refine ⟨fun strategy => ?_, fun n => (Search.sound_after p b clock n).2.timely htime⟩
    exact (Search.run_best (Q := fun _ => True) (fun _ _ => trivial) b clock strategy).2 htime

/-- With one evaluation more than that of the greedy arrangement, neither strategy
returns a worse tiling. -/
theorem unbeaten_of_search_rotating :
    0 < (Grid.mk 3 4).area ∧ 0 < (BlockShape.mk 2 3).area ∧
      (rotating.evaluate [0]).betterThan
        ((Search.start rotating ⟨anHour.time, some 2⟩).run .exhaustive).best = false ∧
      (rotating.evaluate [0]).betterThan
        ((Search.start rotating ⟨anHour.time, some 2⟩).run (.annealing 1)).best = false := by
  have hgrid : 0 < (Grid.mk 3 4).area := by decide
  have hshape : 0 < (BlockShape.mk 2 3).area := by decide
  obtain ⟨p, hmake, ⟨n, -, hexhaustive⟩, hannealing, -⟩ :=
    unbeaten_of_search hgrid hshape 1.0 (1, 1) ⟨anHour.time, some 2⟩ .still
  obtain rfl : rotating = p := Except.ok.inj (make_rotating.symm.trans hmake)
  rw [← greedy_rotating]
  exact ⟨hgrid, hshape, hexhaustive.unbeaten _ (List.mem_of_head? hexhaustive.greedy),
    (hannealing 1).unbeaten _ List.mem_cons_self⟩

end Datapath.Tiling
