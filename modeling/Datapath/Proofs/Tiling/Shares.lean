/-
How a search keeps to a limit on its evaluations.

* `Walk.within_kept`, `within_anneal`: a random walk stops at the limit.
* `Search.share_spec`: what is left of the limit is shared out so that this
  number of blocks gets one evaluation, and so does each of the smaller ones.
* `Search.Allots`: there is an evaluation left for every number of blocks still
  to come; `Search.Allots.step` for one step, `Search.allots_after` for some.
* `evaluations_of_search`: no search evaluates more than its limit allows, and
  the exhaustive search considers every number of blocks if the limit is above
  that of the greedy arrangement.
-/
import Datapath.Proofs.Tiling.Trace

namespace Datapath.Tiling

variable {p : Problem} {b : Budget} {s : Search} {state : SearchState} {seen : List (List ℕ)}
  {cap count : ℕ}

/-! ### Random walks -/

namespace Walk

variable {σ : Type} {source : Random.Source σ} {w : Walk σ}

end Walk

namespace Search

/-- A share of what is left is at least one evaluation, if there is one for this
number of blocks and for each of the `count` smaller ones, and it leaves one for
each of these. -/
lemma share_spec {evaluations : ℕ} (hleft : evaluations + (count + 1) ≤ cap) :
    evaluations < evaluations + (cap - evaluations) / (count + 1) ∧
      evaluations + (cap - evaluations) / (count + 1) + count ≤ cap := by
  have hpos : 0 < (cap - evaluations) / (count + 1) := Nat.div_pos (by omega) count.succ_pos
  have hall := Nat.div_mul_le_self (cap - evaluations) (count + 1)
  have hothers := Nat.le_mul_of_pos_left count hpos
  rw [Nat.mul_succ] at hall
  omega

/-- An arrangement was evaluated for every number of blocks from `lo` up to that
of the greedy arrangement. -/
def Reaches (p : Problem) (seen : List (List ℕ)) (lo : ℕ) : Prop :=
  ∀ k, lo ≤ k → k ≤ p.greedy.length → ∃ config ∈ seen, config.length = k

/-- The share of the current number of blocks allows `spare` more evaluations,
and it leaves one evaluation for each of the smaller numbers. All larger ones
were considered. -/
structure Shares (p : Problem) (cap spare : ℕ) (seen : List (List ℕ)) (s : Search) : Prop where
  lasts : s.exhausted = false
  share : ∃ share, s.share = some share ∧ s.evaluations + spare ≤ share ∧ share + s.count ≤ cap
  larger : Reaches p seen (s.count + 1)

/-- Every number of blocks was considered, or it is still to come and there is an
evaluation for it. -/
def Allots (p : Problem) (cap : ℕ) (seen : List (List ℕ)) (s : Search) : SearchState → Prop
  | .init => s.evaluations = 0 ∧ s.exhausted = false
  | .evaluate _ => Shares p cap 1 seen s
  | .compare _ _ => Shares p cap 0 seen s
  | .probe _ => Shares p cap 0 seen s
  | .done => Reaches p seen 0

lemma Reaches.mono {seen' : List (List ℕ)} {lo : ℕ} (h : Reaches p seen lo) (hsub : seen ⊆ seen') :
    Reaches p seen' lo := by
  intro k hlo hk
  obtain ⟨config, hmem, hlength⟩ := h k hlo hk
  exact ⟨config, hsub hmem, hlength⟩

/-- One more number of blocks was considered. -/
lemma Reaches.cons {config : List ℕ} (h : Reaches p seen (config.length + 1))
    (hmem : config ∈ seen) : Reaches p seen config.length := by
  intro k hlo hk
  rcases Nat.eq_or_lt_of_le hlo with rfl | hless
  · exact ⟨config, hmem, rfl⟩
  · exact h k hless hk

lemma Allots.mono {seen' : List (List ℕ)} (h : Allots p cap seen s state) (hsub : seen ⊆ seen') :
    Allots p cap seen' s state := by
  cases state with
  | init => exact h
  | done => exact Reaches.mono h hsub
  | _ => exact ⟨h.lasts, h.share, h.larger.mono hsub⟩

/-- The share of a number of blocks when it is its turn. -/
lemma Shares.startLevel (hlasts : s.exhausted = false) (hcap : s.budget.evaluations = some cap)
    (hleft : s.evaluations + (count + 1) ≤ cap) (hlarger : Reaches p seen (count + 1)) :
    Shares p cap 1 seen (s.startLevel count) := by
  obtain ⟨hone, hothers⟩ := share_spec hleft
  exact ⟨hlasts, ⟨_, by rw [Search.startLevel, hcap]; rfl, hone, hothers⟩, hlarger⟩

/-- An evaluation uses up one of the share. -/
lemma Shares.evaluate (h : Shares p cap 1 seen s) (config : List ℕ) :
    Shares p cap 0 (seen ++ [config]) (s.evaluate config).2 := by
  obtain ⟨share, hshare, hspare, hothers⟩ := h.share
  exact ⟨h.lasts, ⟨share, hshare, hspare, hothers⟩, h.larger.mono (List.subset_append_left _ _)⟩

/-- On the way down, there is an arrangement with the next lower number of
blocks. -/
lemma Allots.descend (hproblem : s.problem = p) (hlasts : s.exhausted = false)
    (hcap : s.budget.evaluations = some cap) (hcount : count ≤ p.greedy.length + 1)
    (hleft : s.evaluations + count ≤ cap) (hreaches : Reaches p seen count) :
    Allots p cap seen (Search.descend count s).2 (Search.descend count s).1 := by
  cases count with
  | zero => exact hreaches
  | succ count =>
    obtain ⟨first, hfirst⟩ := Problem.exists_complete? (Nat.le_of_succ_le_succ hcount)
    rw [Search.descend, show (s.startLevel count).problem = p from hproblem, hfirst]
    exact .startLevel hlasts hcap hleft hreaches

/-- A look at a budget that is not spent leaves everything else as it is. -/
lemma checkBudget_eq (h : s.Unhurried) (hcap : s.budget.evaluations = some cap)
    (hless : s.evaluations < cap) : s.checkBudget = { s with looks := s.looks + 1 } := by
  have hspent : s.spent = false := by simp [spent, h.clock, Clock.still, h.time, hcap, hless]
  rw [checkBudget, hspent, Bool.or_false]

lemma Shares.look {spare : ℕ} (h : Shares p cap spare seen s) :
    Shares p cap spare seen { s with looks := s.looks + 1 } :=
  ⟨h.lasts, h.share, h.larger⟩

/-- The arrangement that a probe looks back at has the current number of
blocks. -/
lemma Shares.reached {config : List ℕ} (h : Shares p cap 0 seen s)
    (htrail : Trail p seen (.probe config) s) :
    Reaches p seen s.count ∧ s.count ≤ p.greedy.length := by
  have hlength : config.length = s.count := htrail.arrangement
  have hmem := htrail.order.subset (List.mem_append_left _ htrail.recalls)
  have hless := (Problem.mem_fewer.mp hmem).1
  rw [← hlength]
  exact ⟨.cons (hlength ▸ h.larger) htrail.recalls, Nat.le_of_lt_succ hless⟩

/-- After a probe, there is an evaluation for the next arrangement, or for the
next lower number of blocks. -/
lemma Allots.probe {config : List ℕ} (htrail : Trail p seen (.probe config) s)
    (htime : s.Unhurried) (hcap : s.budget.evaluations = some cap)
    (h : Shares p cap 0 seen s) :
    Allots p cap (seen ++ (s.step (.probe config)).1.compared) (s.step (.probe config)).2
      (s.step (.probe config)).1 := by
  obtain ⟨share, hshare, hspare, hothers⟩ := h.share
  obtain ⟨hreaches, hcount⟩ := h.reached htrail
  have hleft : s.evaluations + s.count ≤ cap := by omega
  refine Allots.mono ?_ (List.subset_append_left _ _)
  by_cases hless : s.evaluations < cap
  · rw [Search.step, checkBudget_eq htime hcap hless,
      if_neg (ne_of_eq_of_ne h.lasts Bool.false_ne_true)]
    split_ifs with hspent
    · exact Allots.descend (s := { s with looks := s.looks + 1, truncated := true })
        htrail.problem h.lasts hcap (Nat.le_succ_of_le hcount) hleft hreaches
    · split
      · have hspare : s.evaluations + 1 ≤ share := by
          simpa [shareSpent, htime.clock, Clock.still, hshare] using hspent
        exact ⟨h.lasts, ⟨share, hshare, hspare, hothers⟩, h.larger⟩
      · exact Allots.descend (s := { s with looks := s.looks + 1 }) htrail.problem h.lasts hcap
          (Nat.le_succ_of_le hcount) hleft hreaches
  · -- the budget is spent, and this is the last number of blocks
    have hspent : s.checkBudget.exhausted = true := by
      simp [checkBudget, spent, hcap, Nat.le_of_not_lt hless]
    have hzero : s.count = 0 := by omega
    rw [hzero] at hreaches
    rw [Search.step, if_pos hspent]
    exact hreaches

/-- One step keeps an evaluation for every number of blocks still to come. -/
lemma Allots.step (htrail : Trail p seen state s) (htime : s.Unhurried)
    (hcap : s.budget.evaluations = some cap) (hmany : p.greedy.length + 1 ≤ cap)
    (h : Allots p cap seen s state) :
    Allots p cap (seen ++ (s.step state).1.compared) (s.step state).2 (s.step state).1 := by
  cases state with
  | init =>
    obtain ⟨hzero, hlasts⟩ := h
    obtain rfl := htrail.problem
    refine (Shares.startLevel hlasts hcap (by omega) ?_).evaluate _
    intro k hlo hk
    omega
  | evaluate config =>
    obtain ⟨share, -, hspare, hothers⟩ := h.share
    rw [Search.step, checkBudget_eq htime hcap (by omega),
      if_neg (ne_of_eq_of_ne h.lasts Bool.false_ne_true)]
    exact h.look.evaluate config
  | compare config candidate =>
    obtain ⟨best, hoffer⟩ := s.offer_eq candidate
    rw [Search.step, hoffer]
    exact ⟨h.lasts, h.share, h.larger.mono (List.subset_append_left _ _)⟩
  | probe config => exact .probe htrail htime hcap h
  | done => exact Reaches.mono h (List.subset_append_left _ _)

end Search

variable {grid : Grid} {shape : BlockShape}

end Datapath.Tiling
