/-
What the blocks leave free, cell by cell.

* `countP_runs`: a free cell of a column lies in one run, every other cell in
  none.
* `countP_sweep`: a cell that the sweep passes lies in as many rectangles as
  in runs of its column, and one before it in those that still grow.
* `countP_leftover`: so every free cell of the grid lies in exactly one of the
  rectangles, and no other cell lies in any.
* `leftover_inside`: the rectangles are not empty, and they lie in the grid.
-/
import Datapath.Proofs.Tiling.Geometry
import Datapath.Tiling.Leftover
import Mathlib.Data.List.Nodup
import Mathlib.Tactic.SplitIfs

namespace Datapath.Tiling

variable {free : ℕ → Bool} {x y z a b count height : ℕ}

/-! ### Runs -/

/-- The cell at height `z` lies in the run. -/
def Run.holds (r : Run) (z : ℕ) : Bool := r.y ≤ z && z < r.y + r.height

lemma Run.holds_iff {r : Run} : r.holds z = true ↔ r.y ≤ z ∧ z < r.y + r.height := by
  simp only [holds, Bool.and_eq_true, decide_eq_true_eq]

lemma countP_closeRun (h : height ≤ y) :
    (closeRun y height).countP (·.holds z) = if y - height ≤ z ∧ z < y then 1 else 0 := by
  rw [closeRun]
  split_ifs with hempty hcell hcell
  · omega
  · rfl
  all_goals simp only [List.countP_singleton, Run.holds_iff, Nat.sub_add_cancel h, hcell]
  all_goals simp

/-- A cell lies in one run if it is free, or among the free cells below. -/
lemma countP_runsFrom (h : height ≤ y) :
    (runsFrom free y count height).countP (·.holds z) =
      if (y - height ≤ z ∧ z < y) ∨ (y ≤ z ∧ z < y + count ∧ free z = true) then 1 else 0 := by
  induction count generalizing y height with
  | zero =>
    rw [runsFrom, countP_closeRun h]
    split_ifs <;> omega
  | succ count ih =>
    rw [runsFrom]
    by_cases hfree : free y = true
    · rw [if_pos hfree, ih (by omega)]
      clear ih
      grind
    · rw [if_neg hfree, List.countP_append, countP_closeRun h, ih (by omega)]
      clear ih
      grind

/-- A run has cells, and all of them in the column. -/
lemma runsFrom_inside (h : height ≤ y) {r : Run} (hr : r ∈ runsFrom free y count height) :
    0 < r.height ∧ r.y + r.height ≤ y + count := by
  have hclose : ∀ {y height : ℕ}, height ≤ y → r ∈ closeRun y height →
      0 < r.height ∧ r.y + r.height ≤ y := by
    intro y height h hr
    rw [closeRun] at hr
    split_ifs at hr with hempty
    · cases hr
    · rw [List.mem_singleton] at hr
      subst hr
      dsimp only
      omega
  induction count generalizing y height with
  | zero => exact hclose h hr
  | succ count ih =>
    rw [runsFrom] at hr
    split_ifs at hr
    · have := ih (by omega) hr
      omega
    · rcases List.mem_append.mp hr with hr | hr
      · have := hclose h hr
        omega
      · have := ih (by omega) hr
        omega

lemma countP_runs :
    (runs free height).countP (·.holds z) = if z < height ∧ free z = true then 1 else 0 := by
  rw [runs, countP_runsFrom (Nat.le_refl 0)]
  simp

/-- No run comes twice, as its lowest cell lies in it once. -/
lemma runs_nodup : (runs free height).Nodup := by
  rw [List.nodup_iff_count_le_one]
  intro r
  by_cases hr : r ∈ runs free height
  · have hpos := (runsFrom_inside (Nat.le_refl 0) hr).1
    have hcells : ∀ s ∈ runs free height, (s == r) = true → s.holds r.y = true := by
      intro s _ hs
      rw [beq_iff_eq.mp hs]
      exact Run.holds_iff.mpr (by omega)
    calc (runs free height).count r ≤ (runs free height).countP (·.holds r.y) :=
          List.countP_mono_left hcells
      _ ≤ 1 := by
          rw [countP_runs]
          split_ifs <;> omega
  · rw [List.count_eq_zero_of_not_mem hr]
    omega

/-! ### The sweep -/

section Sweep

variable {growing : List Growing} {column : List Run} {columns : ℕ → List Run}

/-- The rectangle has begun by column `a`, and its run holds the cell at
height `b`. -/
def Growing.reaches (g : Growing) (a b : ℕ) : Bool := g.start ≤ a && g.run.holds b

/-- A rectangle that ends before column `x`. -/
lemma Growing.has_upTo {g : Growing} (h : g.start < x) :
    decide ((g.upTo x).Has a b) = (decide (a < x) && g.reaches a b) := by
  have hend : g.start + (x - g.start) = x := by omega
  rw [Bool.eq_iff_iff]
  simp only [Rect.Has, upTo, reaches, Bool.and_eq_true, decide_eq_true_eq, Run.holds_iff, hend]
  tauto

/-- Rectangles with different runs: the one with a given run is the first. -/
lemma countP_run (h : (growing.map (·.run)).Nodup) (q : Growing → Bool) (r : Run) :
    growing.countP (fun g => q g && g.run == r) =
      (growing.find? (·.run == r)).toList.countP q := by
  induction growing with
  | nil => rfl
  | cons g growing ih =>
    obtain ⟨hnew, hothers⟩ := List.nodup_cons.mp h
    rw [List.countP_cons, List.find?_cons]
    by_cases hg : (g.run == r) = true
    · have hnone : growing.countP (fun g => q g && g.run == r) = 0 := by
        refine List.countP_eq_zero.mpr ?_
        intro k hk hboth
        have hrun : k.run = r := beq_iff_eq.mp (Bool.and_eq_true_iff.mp hboth).2
        exact hnew (List.mem_map.mpr ⟨k, hk, hrun.trans (beq_iff_eq.mp hg).symm⟩)
      simp [hg, hnone, List.countP_singleton]
    · simp only [hg, ih hothers]
      simp

/-- A count over a list is one over the entries with a property and one over
those without it. -/
lemma countP_split (l : List Growing) (q k : Growing → Bool) :
    l.countP q = l.countP (fun g => q g && k g) + l.countP (fun g => q g && !k g) := by
  rw [List.countP_eq_countP_filter_add l q k, List.countP_filter, List.countP_filter]

/-- In the columns before, a column continues the rectangles with its runs. -/
lemma countP_continueWith (hgrowing : (growing.map (·.run)).Nodup) (hcolumn : column.Nodup)
    (ha : a < x) :
    (continueWith x growing column).countP (·.reaches a b) =
      growing.countP (fun g => g.reaches a b && column.contains g.run) := by
  induction column with
  | nil => simp [continueWith]
  | cons r column ih =>
    obtain ⟨hnew, hothers⟩ := List.nodup_cons.mp hcolumn
    have hthis : growing.countP
        (fun g => g.reaches a b && (r :: column).contains g.run && g.run == r) =
          growing.countP (fun g => g.reaches a b && g.run == r) := by
      congr 1
      funext g
      grind
    have hrest : growing.countP
        (fun g => g.reaches a b && (r :: column).contains g.run && !(g.run == r)) =
          growing.countP (fun g => g.reaches a b && column.contains g.run) := by
      congr 1
      funext g
      grind
    rw [countP_split growing _ (·.run == r), hthis, hrest, ← ih hothers, countP_run hgrowing,
      continueWith, List.map_cons, List.countP_cons, Nat.add_comm]
    congr 1
    -- a rectangle that begins in column `x` does not reach column `a`
    cases hfind : growing.find? (·.run == r) with
    | none =>
      have hlater : ¬ x ≤ a := by omega
      simp [Growing.reaches, hlater]
    | some g =>
      have hrun : g.run = r := by simpa using List.find?_some hfind
      simp [Growing.reaches, hrun, List.countP_singleton]

/-- Of the rectangles that grow through a column, those of its runs cover its
cells. -/
lemma countP_continueWith_self (hstart : ∀ g ∈ growing, g.start < x) :
    (continueWith x growing column).countP (·.reaches x b) = column.countP (·.holds b) := by
  rw [continueWith, List.countP_map]
  refine List.countP_congr ?_
  intro r _
  have hbegun : ((growing.find? (·.run == r)).map (·.start)).getD x ≤ x := by
    cases hfind : growing.find? (·.run == r) with
    | none => exact Nat.le_refl x
    | some g => exact Nat.le_of_lt (hstart g (List.mem_of_find?_eq_some hfind))
  simp [Growing.reaches, hbegun]

/-- The rectangles that grow through a column have different runs, and began
by then. -/
lemma continueWith_growing (hcolumn : column.Nodup) (hstart : ∀ g ∈ growing, g.start < x) :
    ((continueWith x growing column).map (·.run)).Nodup ∧
      ∀ g ∈ continueWith x growing column, g.start < x + 1 := by
  refine ⟨by simpa [continueWith, Function.comp_def] using hcolumn, ?_⟩
  intro g hg
  obtain ⟨r, -, rfl⟩ := List.mem_map.mp hg
  cases hfind : growing.find? (·.run == r) with
  | none => simp
  | some k =>
    have := hstart k (List.mem_of_find?_eq_some hfind)
    simp
    omega

/-- A cell that the sweep passes lies in as many rectangles as in runs of its
column. A cell before lies in those that still grow. -/
lemma countP_sweep (hcolumns : ∀ c, (columns c).Nodup) (hgrowing : (growing.map (·.run)).Nodup)
    (hstart : ∀ g ∈ growing, g.start < x) :
    (sweep columns x count growing).countP (·.Has a b) =
      growing.countP (fun g => decide (a < x) && g.reaches a b) +
        if x ≤ a ∧ a < x + count then (columns a).countP (·.holds b) else 0 := by
  induction count generalizing x growing with
  | zero =>
    rw [sweep, List.countP_map, if_neg (by omega), Nat.add_zero]
    refine List.countP_congr ?_
    intro g hg
    rw [Function.comp, Growing.has_upTo (hstart g hg)]
  | succ count ih =>
    obtain ⟨hnext, hnextStart⟩ := continueWith_growing (x := x) (hcolumns x) hstart
    have hended : (endBefore x growing (columns x)).countP (·.Has a b) =
        growing.countP (fun g => (decide (a < x) && g.reaches a b) &&
          !(columns x).contains g.run) := by
      rw [endBefore, List.countP_map, List.countP_filter]
      refine List.countP_congr ?_
      intro g hg
      rw [Function.comp, Growing.has_upTo (hstart g hg)]
    rw [sweep, List.countP_append, hended, ih hnext hnextStart]
    rcases Nat.lt_trichotomy a x with ha | rfl | ha
    · have hgrow := countP_continueWith (b := b) hgrowing (hcolumns x) ha
      simp only [ha, show a < x + 1 by omega, show ¬ x + 1 ≤ a by omega, show ¬ x ≤ a by omega,
        decide_true, Bool.true_and, false_and, if_false, Nat.add_zero, hgrow]
      rw [Nat.add_comm]
      exact (countP_split _ _ _).symm
    · rw [if_neg (by omega), if_pos (by omega), Nat.add_zero, ← countP_continueWith_self hstart]
      simp
    · have hbehind : ¬ a < x + 1 := by omega
      have hbefore : ¬ a < x := by omega
      have hends : (x + 1 ≤ a ∧ a < x + 1 + count) = (x ≤ a ∧ a < x + (count + 1)) := by
        apply propext
        omega
      simp only [hbehind, hbefore, hends, decide_false, Bool.false_and, List.countP_false,
        Function.const, Nat.zero_add]

/-! ### The free cells -/

/-- A rectangle that ends before column `x` is not empty, and it lies in a grid
of that many columns. -/
lemma Growing.upTo_inside {g : Growing} {h : ℕ} (hstart : g.start < x) (hpos : 0 < g.run.height)
    (htop : g.run.y + g.run.height ≤ h) (hend : x ≤ a) :
    (0 < (g.upTo x).width ∧ 0 < (g.upTo x).height) ∧ (g.upTo x).Within (Grid.mk a h) := by
  simp only [upTo, Rect.Within]
  omega

/-- The rectangles that a sweep completes are not empty, and they lie in the
columns before its end. -/
lemma sweep_inside {h : ℕ} (hcolumns : ∀ c, (columns c).Nodup)
    (hruns : ∀ c, ∀ r ∈ columns c, 0 < r.height ∧ r.y + r.height ≤ h)
    (hstart : ∀ g ∈ growing, g.start < x)
    (hgrowing : ∀ g ∈ growing, 0 < g.run.height ∧ g.run.y + g.run.height ≤ h) {r : Rect}
    (hr : r ∈ sweep columns x count growing) :
    (0 < r.width ∧ 0 < r.height) ∧ r.Within (Grid.mk (x + count) h) := by
  induction count generalizing x growing with
  | zero =>
    obtain ⟨g, hg, rfl⟩ := List.mem_map.mp hr
    exact Growing.upTo_inside (hstart g hg) (hgrowing g hg).1 (hgrowing g hg).2 (Nat.le_refl x)
  | succ count ih =>
    rcases List.mem_append.mp hr with hr | hr
    · obtain ⟨g, hg, rfl⟩ := List.mem_map.mp hr
      have hmem := (List.mem_filter.mp hg).1
      exact Growing.upTo_inside (hstart g hmem) (hgrowing g hmem).1 (hgrowing g hmem).2 (by omega)
    · rw [Nat.add_comm count, ← Nat.add_assoc]
      refine ih (continueWith_growing (hcolumns x) hstart).2 ?_ hr
      intro g hg
      obtain ⟨run, hrun, rfl⟩ := List.mem_map.mp hg
      exact hruns x run hrun

end Sweep

/-! ### The free cells -/

/-- The blocks near a column decide which of its cells are free. -/
lemma uncovered_near (blocks : List Rect) (a b : ℕ) :
    uncovered (blocks.filter fun r => r.x ≤ a && a < r.right) a b = uncovered blocks a b := by
  rw [uncovered, uncovered, List.any_filter]
  congr 2
  funext r
  simp only [Rect.covers]
  grind

/-- A free cell of the grid lies in exactly one of the rectangles, and every
other cell in none. -/
theorem countP_leftover (grid : Grid) (blocks : List Rect) (a b : ℕ) :
    (leftover grid blocks).countP (·.Has a b) =
      if (a < grid.width ∧ b < grid.height) ∧ uncovered blocks a b = true then 1 else 0 := by
  rw [leftover, (List.mergeSort_perm _ _).countP_eq,
    countP_sweep (fun _ => runs_nodup) (by simp) (by simp), countP_runs, uncovered_near]
  grind

/-- The rectangles are not empty, and they lie in the grid. -/
theorem leftover_inside {grid : Grid} {blocks : List Rect} {r : Rect}
    (hr : r ∈ leftover grid blocks) :
    (0 < r.width ∧ 0 < r.height) ∧ r.Within grid := by
  rw [leftover, List.mem_mergeSort] at hr
  have hinside := sweep_inside (h := grid.height) (fun _ => runs_nodup)
    (fun c run hrun => by simpa using runsFrom_inside (Nat.le_refl 0) hrun) (by simp) (by simp) hr
  rwa [Nat.zero_add] at hinside

end Datapath.Tiling
