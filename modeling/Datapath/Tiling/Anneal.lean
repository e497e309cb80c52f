/-
Tilings by simulated annealing.

* `neighbour`: an arrangement that differs from another one by one block,
  which is moved, removed or added at random.
* `Walk`: a random walk over arrangements with the search that keeps the best
  of them.
* `Walk.move`: one proposal, accepted if it is cheaper, and at random
  otherwise, the more likely the higher the temperature is.
* `anneal`: the walk from the greedy arrangement, while it cools down.
* `Surroundings`: the clock of a search and its source of random choices.
* `Search.run`: a search by either strategy.
-/
import Datapath.Random.Source
import Datapath.Tiling.Search

namespace Datapath.Tiling

open Datapath.Random (Source)

variable {σ : Type}

/-- The number of attempts at finding a place for a block. -/
def placementAttempts : Nat := 50

/-- A random candidate that fits, within some attempts. -/
def randomFit (source : Source σ) (p : Problem) (config : List Nat) :
    (attempts : Nat) → σ → Option Nat × σ
  | 0, r => (none, r)
  | attempts + 1, r =>
    let (c, r) := source.many p.size r
    if p.fits config c then (some c, r) else randomFit source p config attempts r

/-- The list without entry `i`, in whose place the last entry moves. -/
def swapRemove (config : List Nat) (i : Nat) : List Nat :=
  match config.getLast? with
  | some last => (config.set i last).dropLast
  | none => config

/-- The arrangement with one more block at a random place, if one is
found. -/
def withBlock (source : Source σ) (p : Problem) (config : List Nat) (r : σ) :
    Option (List Nat) × σ :=
  let (c, r) := randomFit source p config placementAttempts r
  (c.map fun c => (config ++ [c]).mergeSort (· ≤ ·), r)

/-- An arrangement with one block moved, removed or added. Without blocks one
is added. -/
def neighbour (source : Source σ) (p : Problem) (config : List Nat) (r : σ) :
    Option (List Nat) × σ :=
  let (kind, r) := source.few 3 r
  if kind = 0 ∧ config ≠ [] then
    let (i, r) := source.many config.length r
    withBlock source p (swapRemove config i) r
  else if kind = 1 ∧ config ≠ [] then
    let (i, r) := source.many config.length r
    (some ((swapRemove config i).mergeSort (· ≤ ·)), r)
  else withBlock source p config r

/-- A random walk. -/
structure Walk (σ : Type) where
  search : Search
  /-- The arrangement the walk is at. -/
  current : List Nat
  currentCost : Float
  random : σ

/-- One proposal at a temperature, and whether it was accepted. Every
proposal is offered to the search. -/
def Walk.move (source : Source σ) (temperature : Float) (w : Walk σ) : Bool × Walk σ :=
  match neighbour source w.search.problem w.current w.random with
  | (none, random) => (false, { w with random })
  | (some next, random) =>
    let (candidate, search) := w.search.evaluate next
    let delta := candidate.cost - w.currentCost
    let search := search.offer candidate
    let accepted : Walk σ := { search, current := next, currentCost := candidate.cost, random }
    if delta < 0.0 then (true, accepted)
    else
      let (x, random) := source.unit random
      if x < (-delta / temperature).exp then (true, { accepted with random })
      else (false, { w with search, random })

/-- Some proposals at a temperature, the number accepted, and whether the
budget was spent before the last. -/
def Walk.moves (source : Source σ) (temperature : Float) :
    (count accepted : Nat) → Walk σ → Nat × Bool × Walk σ
  | 0, accepted, w => (accepted, false, w)
  | count + 1, accepted, w =>
    let w := { w with search := w.search.checkBudget }
    if w.search.exhausted then (accepted, true, w)
    else
      let (yes, w) := w.move source temperature
      moves source temperature count (if yes then accepted + 1 else accepted) w

/-- The temperature at which a walk ends. -/
def frozen : Float := 0.01

/-- What is left of the temperature after one cooling. -/
def cooling : Float := 0.95

/-- The walk while it cools down, at most `coolings` times. It ends when it
is cold, when hardly any proposal is accepted, or when the budget is
spent. -/
def Walk.cool (source : Source σ) (perTemperature : Nat) :
    (coolings : Nat) → (temperature : Float) → Walk σ → Walk σ
  | 0, _, w => w
  | coolings + 1, temperature, w =>
    if temperature > frozen then
      let (accepted, spent, w) := w.moves source temperature perTemperature 0
      if spent || Float.ofNat accepted / Float.ofNat perTemperature < 0.001 then w
      else cool source perTemperature coolings (temperature * cooling) w
    else w

/-- More coolings than a walk can take: it begins at a temperature of at most
four. -/
def maxCoolings : Nat := 128

/-- The search by a random walk from the greedy arrangement. -/
def anneal (source : Source σ) (random : σ) (s : Search) : Search :=
  let greedy := s.problem.greedy
  let (initial, s) := s.evaluate greedy
  let s := { s with best := some initial }
  if s.problem.candidates.isEmpty then s
  else
    let w : Walk σ := { search := s, current := greedy, currentCost := initial.cost, random }
    (w.cool source (10 * (greedy.length + 1)) maxCoolings (2.0 * s.problem.cost.block)).search

/-- What a search takes from outside. -/
class Surroundings where
  /-- The clock of a search that starts now. -/
  clock : Clock
  /-- What the random choices depend on. -/
  Stream : Type
  choices : Source Stream
  /-- Where the random choices begin for a seed. -/
  ofSeed : UInt64 → Stream

/-- A clock on which no time is ever up, and random choices from a stream of
words. -/
instance (priority := low) Surroundings.standard : Surroundings where
  clock := .still
  Stream := Random.WordStream
  choices := Random.seeded
  ofSeed := .ofSeed

/-- The search by a strategy. -/
def Search.run [Surroundings] (s : Search) : Strategy → Outcome
  | .exhaustive => s.exhaust.outcome
  | .annealing seed => (anneal Surroundings.choices (Surroundings.ofSeed seed) s).outcome

end Datapath.Tiling
