/-
The tiling that the exhaustive search returns, among all tilings.

* `ofCandidates_perm`: neither the cost of a tiling nor the area under its
  blocks depends on their order.
* `exists_arrangement`: blocks without common cells are those of an arrangement,
  also where their far corners cannot be counted.
* `bestOf_exhaust`: the result is the best tiling of all arrangements with at
  most as many blocks as the greedy one, if the budget lasts.
* `best_of_exhaustive`: so no such tiling is better.
* `exhaustive_misses_rotated`: the greedy arrangement can have fewer blocks than
  another one, and then a better tiling is never looked at.
-/
import Datapath.Proofs.Tiling.Correct
import Datapath.Proofs.Tiling.Visited

namespace Datapath.Tiling

variable {grid : Grid} {shape : BlockShape} {ratio : Float} {table : ℕ × ℕ} {p : Problem}
  {chosen : List Candidate}

/-! ### The order of blocks -/

/-- What blocks leave free does not depend on their order. -/
lemma leftover_perm {blocks blocks' : List Rect} (h : blocks.Perm blocks') :
    leftover grid blocks = leftover grid blocks' := by
  have hfree : ∀ a b, uncovered blocks a b = uncovered blocks' a b := fun a b => by
    rw [uncovered, uncovered, h.any_eq]
  rw [leftover, leftover]
  congr 2
  funext x
  dsimp only
  congr 1
  funext y
  rw [uncovered_near, uncovered_near, hfree]

/-- Neither the cost of a tiling nor the area under its blocks depends on their
order. -/
lemma ofCandidates_perm {chosen' : List Candidate} (h : chosen.Perm chosen') (grid : Grid)
    (cost : Cost) (table : ℕ × ℕ) :
    (Configuration.ofCandidates grid chosen cost table).cost =
        (Configuration.ofCandidates grid chosen' cost table).cost ∧
      (Configuration.ofCandidates grid chosen cost table).coveredArea =
        (Configuration.ofCandidates grid chosen' cost table).coveredArea := by
  refine ⟨?_, ?_⟩
  · simp only [Configuration.ofCandidates, leftover_perm (h.map (·.rect)), h.length_eq]
  · simp only [Configuration.coveredArea, Configuration.ofCandidates, Configuration.totalArea_eq]
    exact congrArg wrap64 ((((h.map _).map _).map _)).sum_eq

/-! ### Blocks as arrangements -/

lemma exists_numbers (h : ∀ c ∈ chosen, c ∈ p.candidates) :
    ∃ config : List ℕ, config.map (p.candidates[·]?) = chosen.map some := by
  induction chosen with
  | nil => exact ⟨[], rfl⟩
  | cons c chosen ih =>
    obtain ⟨hc, hchosen⟩ := List.forall_mem_cons.mp h
    obtain ⟨config, hconfig⟩ := ih hchosen
    obtain ⟨i, hi⟩ := Array.mem_iff_getElem?.mp hc
    exact ⟨i :: config, by rw [List.map_cons, List.map_cons, hi, hconfig]⟩

/-- Different candidates whose numbers are in order ascend. -/
lemma ascends_of_nodup {config : List ℕ} (hknown : ∀ i ∈ config, i < p.size)
    (hnodup : config.Nodup) (hsorted : config.Pairwise (· ≤ ·)) : Ascends config 0 p.size :=
  ⟨(hsorted.and hnodup).imp fun ⟨hle, hne⟩ => lt_of_le_of_ne hle hne,
    fun i hi => ⟨Nat.zero_le i, hknown i hi⟩⟩

/-- The numbers of blocks without common cells are apart, and all different. -/
lemma apart_of_numbers {config : List ℕ}
    (hconfig : config.map (p.candidates[·]?) = chosen.map some)
    (hpos : ∀ c ∈ chosen, 0 < c.rect.width ∧ 0 < c.rect.height)
    (hapart : chosen.Pairwise fun c d => ¬ c.rect.Meets d.rect) :
    p.Apart config ∧ config.Nodup := by
  have hpairs : (chosen.map some).Pairwise fun c d : Option Candidate =>
      c ≠ d ∧ ∀ x ∈ c, ∀ y ∈ d, x.rect.overlaps y.rect = false := by
    refine List.pairwise_map.mpr (hapart.imp_of_mem ?_)
    intro c d hc hd hmeets
    refine ⟨?_, ?_⟩
    · rintro ⟨⟩
      exact hmeets (Rect.meets_self (hpos c hc))
    · rintro _ ⟨⟩ _ ⟨⟩
      exact Rect.overlaps_of_not_meets (hpos c hc) (hpos d hd) hmeets
  rw [← hconfig] at hpairs
  have hpairs := List.pairwise_map.mp hpairs
  refine ⟨hpairs.imp ?_, hpairs.imp ?_⟩
  · rintro i j ⟨-, hij⟩
    rw [Problem.clash]
    cases hi : p.candidates[i]? with
    | none => rfl
    | some c =>
      cases hj : p.candidates[j]? with
      | none => rfl
      | some d => exact hij c hi d hj
  · rintro i j ⟨hne, -⟩ rfl
    exact hne rfl

/-- Blocks without common cells are those of an arrangement, up to their order. -/
lemma exists_arrangement (hmake : Problem.make grid shape ratio table = .ok p)
    (h : ∀ c ∈ chosen, c ∈ Candidate.enumerate grid shape)
    (hapart : chosen.Pairwise fun c d => ¬ c.rect.Meets d.rect) :
    ∃ config ∈ p.fewer (chosen.length + 1),
      (config.filterMap (p.candidates[·]?)).Perm chosen := by
  obtain ⟨-, -, -, hcandidates⟩ := Problem.make_eq_ok hmake
  obtain ⟨config, hconfig⟩ := exists_numbers (p := p) fun c hc => by
    rw [hcandidates]
    exact List.mem_toArray.mpr (h c hc)
  have hlength : config.length = chosen.length := by
    simpa using congrArg List.length hconfig
  obtain ⟨hclash, hnodup⟩ := apart_of_numbers hconfig
    (fun c hc => (of_mem_enumerate (h c hc)).1.pos) hapart
  have hchosen : config.filterMap (p.candidates[·]?) = chosen := by
    have hall := congrArg (List.filterMap id) hconfig
    simpa [List.filterMap_map] using hall
  have hknown : ∀ i ∈ config, i < p.size := by
    intro i hi
    have hmem : p.candidates[i]? ∈ chosen.map some := hconfig ▸ List.mem_map_of_mem hi
    obtain ⟨c, -, hc⟩ := List.mem_map.mp hmem
    exact (Array.getElem?_eq_some_iff.mp hc.symm).1
  have hperm := List.mergeSort_perm config (· ≤ ·)
  refine ⟨config.mergeSort (· ≤ ·), Problem.mem_fewer.mpr ⟨?_, ?_, hclash.sorted⟩, ?_⟩
  · rw [hperm.length_eq, hlength]
    exact Nat.lt_succ_self _
  · have hsorted : (config.mergeSort (· ≤ ·)).Pairwise fun i j => decide (i ≤ j) = true :=
      List.pairwise_mergeSort (fun i j k => by simpa using Nat.le_trans)
        (fun i j => by simpa using Nat.le_total i j) config
    exact ascends_of_nodup (fun i hi => hknown i (hperm.mem_iff.mp hi)) (hperm.nodup_iff.mpr hnodup)
      (by simpa using hsorted)
  · rw [← hchosen]
    exact hperm.filterMap _

/-! ### The best of all arrangements -/

/-- If the budget lasts, the result is the best tiling of all arrangements with
at most as many blocks as the greedy one. -/
lemma bestOf_exhaust {b : Budget} {clock : Clock}
    (hlasts : (Search.start p b clock).exhaust.outcome.budgetExhausted = false) :
    Search.BestOf p (some (Search.start p b clock).exhaust.outcome.best)
      (p.fewer (p.greedy.length + 1)) := by
  have hcovers := Search.covers_exhaust p b clock
  generalize (Search.start p b clock).exhaust = s at hlasts hcovers
  obtain ⟨hexhausted, htruncated⟩ : s.exhausted = false ∧ s.truncated = false := by
    rw [Search.outcome] at hlasts
    split at hlasts <;> exact Bool.or_eq_false_iff.mp hlasts
  obtain ⟨seen, hseen, hbest⟩ := hcovers.seen hexhausted htruncated
  rw [SearchState.remaining, List.append_nil] at hseen
  subst hseen
  obtain ⟨others, hgreedy⟩ := p.arrangements_greedy
  have hmem : p.greedy ∈ p.fewer (p.greedy.length + 1) := by
    rw [Problem.fewer_succ, hgreedy]
    exact List.mem_append_left _ List.mem_cons_self
  obtain ⟨c, hc, -⟩ := hbest.unbeaten _ hmem
  rw [Search.outcome, hc]
  rwa [hc] at hbest

/-- **The exhaustive search finds the best tiling with at most as many blocks as
the greedy one.** If the budget lasts, its result is the tiling of an
arrangement of blocks that do not overlap, and no tiling with blocks that have no
cell in common, and not more of them than in the greedy arrangement, is better.
Blocks whose far corners cannot be counted are among those compared. -/
theorem best_of_exhaustive [Surroundings]
    (hmake : Problem.make grid shape ratio table = .ok p) {b : Budget} {clock : Clock}
    (hlasts : ((Search.start p b clock).run .exhaustive).budgetExhausted = false) :
    (∃ config, p.Apart config ∧ config.length ≤ p.greedy.length ∧
      ((Search.start p b clock).run .exhaustive).best = p.evaluate config) ∧
    ∀ chosen : List Candidate, (∀ c ∈ chosen, c ∈ Candidate.enumerate grid shape) →
      chosen.Pairwise (fun c d => ¬ c.rect.Meets d.rect) →
      chosen.length ≤ p.greedy.length →
      (Configuration.ofCandidates p.grid chosen p.cost p.table).betterThan
        ((Search.start p b clock).run .exhaustive).best = false := by
  have hbest := bestOf_exhaust hlasts
  refine ⟨?_, ?_⟩
  · obtain ⟨config, hmem, hconfig⟩ := hbest.mem _ rfl
    obtain ⟨hlength, -, hapart⟩ := Problem.mem_fewer.mp hmem
    exact ⟨config, hapart, Nat.le_of_lt_succ hlength, hconfig⟩
  · intro chosen hchosen hapart hcount
    obtain ⟨config, hmem, hperm⟩ := exists_arrangement hmake hchosen hapart
    obtain ⟨hlength, hconfig⟩ := Problem.mem_fewer.mp hmem
    have hall : config ∈ p.fewer (p.greedy.length + 1) :=
      Problem.mem_fewer.mpr ⟨by omega, hconfig⟩
    obtain ⟨c, hc, hworse⟩ := hbest.unbeaten _ hall
    cases hc
    obtain ⟨hcost, harea⟩ := ofCandidates_perm hperm p.grid p.cost p.table
    rw [Configuration.betterThan, ← hcost, ← harea]
    exact hworse

/-! ### Tables of one cell -/

lemma Placement.Fits.area {b : Placement} (h : b.Fits grid shape) : b.rect.area = shape.area := by
  have hsides := h.sides
  rw [Rect.area, BlockShape.area]
  split_ifs at hsides
  · rw [(Prod.mk.inj hsides).1, (Prod.mk.inj hsides).2, Nat.mul_comm]
  · rw [(Prod.mk.inj hsides).1, (Prod.mk.inj hsides).2]

/-- With tables of one cell, the cost of a tiling is that of its blocks and of
all cells beside them. -/
lemma cost_of_oneCell (hgrid : grid.InWords)
    (hfits : ∀ c ∈ chosen, (Placement.ofCandidate c).Fits grid shape)
    (hapart : chosen.Pairwise fun c d => c.rect.overlaps d.rect = false) (cost : Cost) :
    (Configuration.ofCandidates grid chosen cost (1, 1)).cost =
      cost.of chosen.length (grid.area - chosen.length * shape.area) := by
  have htiles := tiles_of_chosen cost (1, 1) hgrid hfits hapart
  have hsum := (Configuration.fills_of_validate
    (fun r hr => (htiles.within r hr).inWords hgrid) htiles.valid).sum_cells fun _ => 1
  simp only [Finset.sum_const, smul_eq_mul, mul_one, Rect.card_cells] at hsum
  rw [Configuration.rects_ofCandidates, List.map_append, List.sum_append] at hsum
  have hblocks : ((chosen.map (·.rect)).map Rect.area).sum = chosen.length * shape.area := by
    have hareas : ∀ c ∈ chosen, (Rect.area ∘ (·.rect)) c = shape.area := fun c hc =>
      (hfits c hc).area
    rw [List.map_map, List.map_congr_left hareas, List.map_const', List.sum_replicate,
      smul_eq_mul]
  have hcells : ∀ r : Rect, tableCells r (1, 1) = r.area := fun r => by
    simp [tableCells, tableCount, ceilDiv, Rect.area]
  have hlogic : (leftover grid (chosen.map (·.rect))).foldr
      (fun r n => tableCells r (1, 1) + n) 0 = grid.area - chosen.length * shape.area := by
    simp only [hcells]
    change totalArea _ = _
    rw [Configuration.totalArea_eq, ← hblocks]
    exact Nat.eq_sub_of_add_eq' hsum
  have hcount : grid.area - chosen.length * shape.area < 2 ^ 64 :=
    (Nat.sub_le _ _).trans_lt hgrid.area_lt
  simp only [Configuration.ofCandidates, hlogic, wrap64_of_lt hcount]

/-- A small problem: blocks that fit once as they are, but twice if they are
rotated. -/
def rotating : Problem where
  grid := ⟨3, 4⟩
  cost := .weights 1.0 6
  table := (1, 1)
  candidates := (Candidate.enumerate ⟨3, 4⟩ ⟨2, 3⟩).toArray

lemma make_rotating : Problem.make ⟨3, 4⟩ ⟨2, 3⟩ 1.0 (1, 1) = .ok rotating := rfl

/-- The first candidate leaves no place for another one. -/
lemma greedy_rotating : rotating.greedy = [0] := by decide +kernel

/-- An hour, and no limit on the number of evaluations. -/
def anHour : Budget := ⟨3600000000000, none⟩

/-- The rotated blocks, one above the other. -/
def rotatedBlocks : List Candidate := [⟨⟨0, 0, 3, 2⟩, true⟩, ⟨⟨0, 2, 3, 2⟩, true⟩]

/-- The cost of some of these blocks and of the cells beside them. -/
lemma cost_rotating (hmem : ∀ c ∈ chosen, c ∈ Candidate.enumerate ⟨3, 4⟩ ⟨2, 3⟩)
    (hapart : chosen.Pairwise fun c d => c.rect.overlaps d.rect = false) :
    (Configuration.ofCandidates rotating.grid chosen rotating.cost rotating.table).cost =
      rotating.cost.of chosen.length (12 - chosen.length * 6) :=
  cost_of_oneCell (by decide) (fun c hc => (fits_of_mem_enumerate (by decide) (hmem c hc)).1) hapart
    rotating.cost

theorem best_of_exhaustive_rotating :
    ∃ p, Problem.make ⟨3, 4⟩ ⟨2, 3⟩ 1.0 (1, 1) = .ok p ∧
      ((Search.start p anHour).run .exhaustive).budgetExhausted = false ∧
      (∃ config, p.Apart config ∧ config.length ≤ p.greedy.length ∧
        ((Search.start p anHour).run .exhaustive).best = p.evaluate config) ∧
      (Configuration.ofCandidates p.grid [⟨⟨0, 1, 3, 2⟩, true⟩] p.cost p.table).betterThan
        ((Search.start p anHour).run .exhaustive).best = false := by
  have hlasts : ((Search.start rotating anHour).run .exhaustive).budgetExhausted = false :=
    Search.lasts_exhaust (by decide) rfl
  obtain ⟨hfound, hall⟩ := best_of_exhaustive make_rotating hlasts
  refine ⟨rotating, make_rotating, hlasts, hfound, hall _ (by decide) (by decide) ?_⟩
  rw [greedy_rotating]
  exact le_rfl

theorem exhaustive_misses_rotated :
    ∃ p, Problem.make ⟨3, 4⟩ ⟨2, 3⟩ 1.0 (1, 1) = .ok p ∧
      ((Search.start p anHour).run .exhaustive).budgetExhausted = false ∧
      (∀ c ∈ rotatedBlocks, c ∈ Candidate.enumerate ⟨3, 4⟩ ⟨2, 3⟩) ∧
      rotatedBlocks.Pairwise (fun c d => ¬ c.rect.Meets d.rect) ∧
      (Configuration.ofCandidates p.grid rotatedBlocks p.cost p.table).betterThan
        ((Search.start p anHour).run .exhaustive).best = true := by
  have hlasts : (Search.start rotating anHour).exhaust.outcome.budgetExhausted = false :=
    Search.lasts_exhaust (by decide) rfl
  have hmem : ∀ c ∈ rotatedBlocks, c ∈ Candidate.enumerate ⟨3, 4⟩ ⟨2, 3⟩ := by decide
  have hapart : rotatedBlocks.Pairwise fun c d => c.rect.overlaps d.rect = false := by decide
  refine ⟨rotating, make_rotating, hlasts, hmem, by decide, betterThan_iff.mpr (.inl ?_)⟩
  obtain ⟨config, hconfig, hbest⟩ := (bestOf_exhaust hlasts).mem _ rfl
  obtain ⟨hlength, -, hconfigApart⟩ := Problem.mem_fewer.mp hconfig
  rw [greedy_rotating] at hlength
  change _ < (Search.start rotating anHour).exhaust.outcome.best.cost
  rw [hbest, Problem.evaluate, cost_rotating hmem hapart,
    cost_rotating (fun c hc => ?_) hconfigApart.chosen]
  · -- the result has one block or none
    have hcount : (config.filterMap (rotating.candidates[·]?)).length ≤ 1 :=
      (List.length_filterMap_le _ _).trans (Nat.le_of_lt_succ hlength)
    rcases Nat.le_one_iff_eq_zero_or_eq_one.mp hcount with hnone | hone
    · rw [hnone]
      decide
    · rw [hone]
      decide
  · obtain ⟨i, -, hi⟩ := List.mem_filterMap.mp hc
    exact Problem.mem_enumerate make_rotating hi

end Datapath.Tiling
