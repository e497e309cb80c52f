/-
The search for the cheapest tiling.

* `Problem`: a grid, the candidate positions for its blocks, and costs. An
  arrangement is a list of candidate numbers.
* `Budget`: limits on time and on the number of arrangements evaluated.
* `Clock`: what a search finds whenever it looks at the clock.
* `Problem.greedy`: the blocks that fit when candidates are taken in order.
* `Problem.complete?`, `Problem.successor?`: the arrangement after another
  one in lexicographic order, among those with the same number of blocks.
* `Search.step`: one step of the exhaustive search. It begins with the greedy
  arrangement and goes through all arrangements with as many blocks, then
  with one block fewer, down to none. What is left of the budget is shared
  out evenly over the numbers of blocks still to come. A share of the time
  that outlasts the clock leaves the search without a result.
* `Search.exhaust`: all steps of the exhaustive search.
-/
import Datapath.Decimal.Shortest
import Datapath.Tiling.Configuration

namespace Datapath.Tiling

/-! ### Budgets -/

/-- Limits on a search. Time is a duration in nanoseconds; a search without
time is over at once, and any other time when the clock says so. -/
structure Budget where
  time : Nat
  evaluations : Option Nat
  deriving DecidableEq, Repr, Inhabited

/-- `num / den` to the nearest whole number, and to the even one of two. -/
def roundQuotient (num den : Nat) : Nat :=
  let q := num / den
  let r := num % den
  if 2 * r < den then q else if den < 2 * r then q + 1 else q + q % 2

/-- A duration of `seconds` in nanoseconds. Whole seconds are counted in 64
bits, which longer durations do not fit. -/
def nanoseconds? (seconds : Float) : Option Nat :=
  if seconds.isNaN || seconds ≤ 0.0 then some 0
  else if seconds ≥ 18446744073709551616.0 then none
  else
    let x := Decimal.Dyadic.ofBits seconds.toBits
    some (roundQuotient ((x.m * 1000000000) <<< x.q.toNat) (1 <<< (-x.q).toNat))

/-- The budget of some minutes. -/
def Budget.minutes? (minutes : Float) : Option Budget :=
  (nanoseconds? (minutes * 60.0)).map fun time => { time, evaluations := none }

/-- What the clock says whenever a search looks at it. Each look compares the
time that has passed with that of the budget, and the current time with the end
of the share of time that a number of blocks has. -/
structure Clock where
  /-- At this look, the time of the search is up. -/
  up : Nat → Bool
  /-- At this look, the time of the current number of blocks is up. -/
  late : Nat → Bool
  deriving Inhabited

/-- A clock on which no time is ever up. -/
def Clock.still : Clock := ⟨fun _ => false, fun _ => false⟩

/-- The nanoseconds that are left on the clock when a search starts. It counts
seconds in 63 bits, and some of them are over. -/
def clockSpan : Nat := (0x8000000000000000 - 0x400) * 1000000000

/-! ### Arrangements -/

/-- How the best tiling is looked for. -/
inductive Strategy where
  /-- By going through all arrangements. -/
  | exhaustive
  /-- By a random walk from the greedy arrangement. -/
  | annealing (seed : UInt64)
  deriving DecidableEq, Repr, Inhabited

/-- A tiling problem. -/
structure Problem where
  grid : Grid
  cost : Cost
  /-- The size of the tables for what is left to logic. -/
  table : Nat × Nat
  /-- The positions that a block may take, in scan order. -/
  candidates : Array Candidate

namespace Problem

/-- The problem of covering a grid with blocks. Neither may be empty. -/
def make (grid : Grid) (shape : BlockShape) (ratio : Float) (table : Nat × Nat) :
    Except BuildError Problem :=
  if grid.area = 0 ∨ shape.area = 0 then
    .error (.configuration (.emptyTiling grid.width grid.height shape.width shape.height))
  else
    .ok
      { grid, cost := .weights ratio shape.area, table
        candidates := (Candidate.enumerate grid shape).toArray }

/-- The number of candidates. -/
def size (p : Problem) : Nat := p.candidates.size

/-- The candidates `i` and `j` overlap. -/
def clash (p : Problem) (i j : Nat) : Bool :=
  match p.candidates[i]?, p.candidates[j]? with
  | some c, some d => c.rect.overlaps d.rect
  | _, _ => false

/-- Candidate `i` overlaps none of an arrangement. -/
def fits (p : Problem) (config : List Nat) (i : Nat) : Bool := config.all fun j => !p.clash j i

/-- The first candidate from `start` on that fits. -/
def firstFit? (p : Problem) (config : List Nat) (start : Nat) : Option Nat :=
  if start < p.size then
    if p.fits config start then some start else p.firstFit? config (start + 1)
  else none
termination_by p.size - start

/-- The arrangement with every candidate from `start` on that fits when its
turn comes. -/
def greedyFrom (p : Problem) (config : List Nat) (start : Nat) : List Nat :=
  if start < p.size then
    p.greedyFrom (if p.fits config start then config ++ [start] else config) (start + 1)
  else config
termination_by p.size - start

/-- The arrangement that takes candidates in order. -/
def greedy (p : Problem) : List Nat := p.greedyFrom [] 0

/-- The first arrangement in lexicographic order that extends `config` by
`need` candidates from `start` on. -/
def complete? (p : Problem) (config : List Nat) (start need : Nat) : Option (List Nat) :=
  if need = 0 then some config
  else if start < p.size then
    if p.fits config start then
      (p.complete? (config ++ [start]) (start + 1) (need - 1)).or
        (p.complete? config (start + 1) need)
    else p.complete? config (start + 1) need
  else none
termination_by p.size - start

/-- The first arrangement of `count` candidates after all those that begin
with `rest.reverse` and then a candidate before `start`. -/
def resume? (p : Problem) (count : Nat) : (rest : List Nat) → (start : Nat) → Option (List Nat)
  | [], start => if 0 < count then p.complete? [] start count else none
  | last :: rest, start =>
    let config := (last :: rest).reverse
    let here := if config.length < count then p.complete? config start (count - config.length)
      else none
    here.or (p.resume? count rest (last + 1))

/-- The arrangement of `count` candidates after a given one. -/
def successor? (p : Problem) (count : Nat) (config : List Nat) : Option (List Nat) :=
  match config.reverse with
  | [] => none
  | last :: rest =>
    if rest.length = count then some rest.reverse else p.resume? count rest (last + 1)

/-- The tiling of an arrangement. -/
def evaluate (p : Problem) (config : List Nat) : Configuration :=
  .ofCandidates p.grid (config.filterMap (p.candidates[·]?)) p.cost p.table

end Problem

/-! ### The exhaustive search -/

/-- A search in progress. -/
structure Search where
  problem : Problem
  budget : Budget
  clock : Clock
  /-- The looks at the clock so far. -/
  looks : Nat
  /-- The arrangements evaluated so far. -/
  evaluations : Nat
  /-- The budget is spent. -/
  exhausted : Bool
  /-- Some number of blocks spent its share before all of its arrangements
  were evaluated. -/
  truncated : Bool
  best : Option Configuration
  /-- The number of blocks in the arrangements looked at. -/
  count : Nat
  /-- The number of evaluations at which this number of blocks has spent its
  share. -/
  share : Option Nat
  /-- Some share of the time outlasts the clock. -/
  overrun : Bool

/-- Where the exhaustive search is. -/
inductive SearchState where
  /-- Before the first arrangement. -/
  | init
  /-- About to look for the arrangement after this one. -/
  | probe (config : List Nat)
  /-- About to evaluate this arrangement. -/
  | evaluate (config : List Nat)
  /-- About to compare the tiling of this arrangement with the best. -/
  | compare (config : List Nat) (candidate : Configuration)
  | done

/-- The result of a search. -/
structure Outcome where
  best : Configuration
  evaluations : Nat
  /-- The budget was spent before all arrangements were evaluated. -/
  budgetExhausted : Bool
  /-- There is no result, as some share of the time outlasts the clock. -/
  overrun : Bool

namespace Search

/-- The search before its first step. -/
def start (problem : Problem) (budget : Budget) (clock : Clock := .still) : Search :=
  { problem, budget, clock, looks := 0, evaluations := 0, exhausted := false, truncated := false
    best := none, count := 0, share := none, overrun := false }

/-- The tiling of an arrangement, which counts as evaluated from then on. -/
def evaluate (s : Search) (config : List Nat) : Configuration × Search :=
  (s.problem.evaluate config, { s with evaluations := s.evaluations + 1 })

/-- The better one of the best tiling so far and another one, which has to be
better to replace it. -/
def offer (s : Search) (candidate : Configuration) : Search :=
  match s.best with
  | some best => if candidate.betterThan best then { s with best := some candidate } else s
  | none => { s with best := some candidate }

/-- The whole budget is spent. -/
def spent (s : Search) : Bool :=
  s.budget.time = 0 || s.clock.up s.looks ||
    (s.budget.evaluations.any fun cap => cap ≤ s.evaluations)

/-- The search after a look at the clock and the budget, which it remembers once
it is spent. -/
def checkBudget (s : Search) : Search :=
  { s with exhausted := s.exhausted || s.spent, looks := s.looks + 1 }

/-- The search with the arrangements of `count` blocks in front of it. What
is left of the budget is shared out evenly over this number of blocks and all
the smaller ones. -/
def startLevel (s : Search) (count : Nat) : Search :=
  { s with
    count
    share := s.budget.evaluations.map fun cap =>
      s.evaluations + (cap - s.evaluations) / (count + 1)
    overrun := s.overrun || clockSpan ≤ s.budget.time / (count + 1) }

/-- This number of blocks has spent its share. -/
def shareSpent (s : Search) : Bool :=
  s.clock.late s.looks || s.share.any fun share => share ≤ s.evaluations

/-- The first arrangement with fewer than `count` blocks, with as many as
there can be. -/
def descend : (count : Nat) → Search → SearchState × Search
  | 0, s => (.done, s)
  | count + 1, s =>
    let s := s.startLevel count
    match s.problem.complete? [] 0 count with
    | some config => (.evaluate config, s)
    | none => descend count s

/-- One step of the exhaustive search. The greedy arrangement is evaluated
whatever the budget is. -/
def step (s : Search) : SearchState → SearchState × Search
  | .init =>
    let config := s.problem.greedy
    let (candidate, s) := (s.startLevel config.length).evaluate config
    (.compare config candidate, s)
  | .evaluate config =>
    let s := s.checkBudget
    if s.exhausted then (.done, s)
    else
      let (candidate, s) := s.evaluate config
      (.compare config candidate, s)
  | .compare config candidate => (.probe config, s.offer candidate)
  | .probe config =>
    let s := s.checkBudget
    if s.exhausted then (.done, s)
    else if s.shareSpent then descend s.count { s with truncated := true }
    else
      match s.problem.successor? s.count config with
      | some next => (.evaluate next, s)
      | none => descend s.count s
  | .done => (.done, s)

/-- The search after at most `limit` steps, or when it is done. -/
def runSteps : (limit : Nat) → SearchState → Search → Search
  | 0, _, s => s
  | _, .done, s => s
  | limit + 1, state, s =>
    let (state, s) := s.step state
    runSteps limit state s

/-- A number of steps that is enough: three for every arrangement, of which
there are at most as many as sets of candidates. -/
def stepLimit (p : Problem) : Nat := (3 <<< p.size) + 3

/-- The search after all of its steps. -/
def exhaust (s : Search) : Search := runSteps (stepLimit s.problem) .init s

/-- What a search came to. A search that compared nothing takes the tiling
without blocks. -/
def outcome (s : Search) : Outcome :=
  match s.best with
  | some best => ⟨best, s.evaluations, s.exhausted || s.truncated, s.overrun⟩
  | none =>
    let (best, s) := s.evaluate []
    ⟨best, s.evaluations, s.exhausted || s.truncated, s.overrun⟩

/-! ### Arrangements from outside -/

/-- A step from this state would look at a candidate that does not exist.
Candidates are looked at one after the other, and an overlap ends the look. -/
def looksAtUnknown (s : Search) : SearchState → Bool
  | .evaluate config => !s.checkBudget.exhausted && config.any (s.problem.size ≤ ·)
  | .probe config =>
    !s.checkBudget.exhausted && !s.checkBudget.shareSpent && config.length ≠ s.count + 1 &&
      match config.findIdx? (s.problem.size ≤ ·) with
      | some i =>
        (config.drop (i + 1)).any fun last =>
          (s.problem.firstFit? (config.take i) (last + 1)).isSome
      | none => false
  | _ => false

/-- One step from any state. None comes of looking at a candidate that does
not exist, nor of a share of the time that outlasts the clock. -/
def step? (s : Search) (state : SearchState) : Option (SearchState × Search) :=
  if s.looksAtUnknown state then none
  else
    let (next, s) := s.step state
    if s.overrun then none else some (next, s)

end Search

end Datapath.Tiling
