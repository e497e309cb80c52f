/-
The tiling that a search returns is correct.

* `fills_of_countP`, `Fills.countP`: rectangles of a grid fill it if every cell
  lies in exactly one of them, and only then.
* `Configuration.validate_of_fills`: rectangles that are not empty and fill
  the grid pass the check of a tiling.
* `fills_counted`: blocks that the checks take for disjoint fill the grid with
  what they leave free, as far as the checks see them.
* `inWords_of_validate`: if their tiling passes its check, the checks see all of
  them.
* `Placement.Fits`: a block in the grid, with exchanged sides if it is
  rotated; `fits_of_mem_enumerate` says so of all candidates whose far corners can
  be counted (`Grid.Counts`).
* `Configuration.Tiles`: what a correct tiling is; `tiles_of_apart`: candidates
  apart from each other make one.
* `Problem.apart_iff`: arrangements whose blocks have no cell in common.
* `tiles_of_search`: whatever the budget and the strategy are, a search
  returns a correct tiling. `search_without_tiling`: where it does not, far corners
  or times cannot be counted.
-/
import Datapath.Proofs.Tiling.Best
import Datapath.Proofs.Tiling.Cover
import Datapath.Proofs.Tiling.Leftover

namespace Datapath.Tiling

/-! ### Cells of rectangles that fill a grid -/

lemma Grid.mem_cells_whole {g : Grid} {a b : ℕ} :
    (a, b) ∈ g.whole.cells ↔ a < g.width ∧ b < g.height := by
  rw [Rect.mem_cells_iff, Rect.Has]
  simp only [whole]
  omega

/-- No two rectangles share a cell if every cell lies in at most one. -/
lemma disjoint_of_countP {rects : List Rect} (h : ∀ a b, rects.countP (·.Has a b) ≤ 1) :
    rects.Pairwise fun r s => Disjoint r.cells s.cells := by
  induction rects with
  | nil => exact .nil
  | cons r rects ih =>
    simp only [List.countP_cons] at h
    refine .cons ?_ (ih fun a b => (Nat.le_add_right _ _).trans (h a b))
    intro s hs
    refine Rect.disjoint_iff.mpr ?_
    rintro ⟨a, b, hr, hboth⟩
    have hpos : 0 < rects.countP (·.Has a b) :=
      List.countP_pos_iff.mpr ⟨s, hs, decide_eq_true hboth⟩
    have hcount := h a b
    rw [if_pos (decide_eq_true hr)] at hcount
    omega

/-- Of rectangles apart from each other, one lies over each of their cells and
none over any other cell. -/
lemma countP_disjoint {rects : List Rect}
    (h : rects.Pairwise fun r s => Disjoint r.cells s.cells) (a b : ℕ) :
    rects.countP (·.Has a b) = if (a, b) ∈ allCells rects then 1 else 0 := by
  induction rects with
  | nil => rfl
  | cons r rects ih =>
    obtain ⟨hfirst, hothers⟩ := List.pairwise_cons.mp h
    have hcell : (a, b) ∈ allCells (r :: rects) ↔ r.Has a b ∨ (a, b) ∈ allCells rects := by
      rw [← Rect.mem_cells_iff]
      exact Finset.mem_union
    rw [List.countP_cons, ih hothers]
    by_cases hr : r.Has a b
    · have hnone : (a, b) ∉ allCells rects := by
        intro hcell
        obtain ⟨s, hs, hcs⟩ := mem_allCells.mp hcell
        exact Finset.disjoint_left.mp (hfirst s hs) (Rect.mem_cells_iff.mpr hr) hcs
      rw [if_neg hnone, if_pos (decide_eq_true hr), if_pos (hcell.mpr (.inl hr))]
    · simp [hcell, hr]

/-- Rectangles of a grid fill it if every cell lies in exactly one of them. -/
theorem fills_of_countP {g : Grid} {rects : List Rect} (hwithin : ∀ r ∈ rects, r.Within g)
    (hcells : ∀ a b, a < g.width → b < g.height → rects.countP (·.Has a b) = 1) :
    Fills rects g := by
  have hinside : ∀ {a b : ℕ}, 0 < rects.countP (·.Has a b) → a < g.width ∧ b < g.height := by
    intro a b hpos
    obtain ⟨r, hr, hcell⟩ := List.countP_pos_iff.mp hpos
    have hin := hwithin r hr
    have hcell := of_decide_eq_true hcell
    rw [Rect.Within] at hin
    rw [Rect.Has] at hcell
    omega
  refine ⟨disjoint_of_countP ?_, hwithin, ?_⟩
  · intro a b
    by_contra hmany
    obtain ⟨ha, hb⟩ := hinside (by omega : 0 < rects.countP (·.Has a b))
    exact hmany (hcells a b ha hb).le
  · ext ⟨a, b⟩
    rw [mem_allCells, Grid.mem_cells_whole]
    constructor
    · rintro ⟨r, hr, hcell⟩
      exact hinside (List.countP_pos_iff.mpr ⟨r, hr, decide_eq_true (Rect.mem_cells_iff.mp hcell)⟩)
    · rintro ⟨ha, hb⟩
      obtain ⟨r, hr, hcell⟩ := List.countP_pos_iff.mp ((hcells a b ha hb).symm ▸ Nat.one_pos)
      exact ⟨r, hr, Rect.mem_cells_iff.mpr (of_decide_eq_true hcell)⟩

/-- If rectangles fill a grid, every cell of it lies in exactly one of them. -/
lemma Fills.countP {g : Grid} {rects : List Rect} (h : Fills rects g) {a b : ℕ} (ha : a < g.width)
    (hb : b < g.height) : rects.countP (·.Has a b) = 1 := by
  rw [countP_disjoint h.disjoint, h.cells, if_pos (Grid.mem_cells_whole.mpr ⟨ha, hb⟩)]

/-- Rectangles that fill a grid have its area. -/
lemma Fills.totalArea {g : Grid} {rects : List Rect} (h : Fills rects g) :
    totalArea rects = g.area := by
  have hcells := h.sum_cells fun _ => 1
  simp only [Finset.sum_const, smul_eq_mul, mul_one, Rect.card_cells] at hcells
  rw [Configuration.totalArea_eq, hcells]
  rfl

/-! ### The check of a tiling -/

namespace Configuration

lemma checkRects_of_disjoint {g : Grid} {rects : List Rect}
    (hpos : ∀ r ∈ rects, 0 < r.width ∧ 0 < r.height) (hholds : ∀ r ∈ rects, g.holds r = true)
    (hdisjoint : rects.Pairwise fun r s => Disjoint r.cells s.cells) :
    checkRects g rects = .ok () := by
  induction rects with
  | nil => rfl
  | cons r rects ih =>
    obtain ⟨hfirst, hothers⟩ := List.pairwise_cons.mp hdisjoint
    obtain ⟨hrpos, hpos⟩ := List.forall_mem_cons.mp hpos
    obtain ⟨hr, hholds⟩ := List.forall_mem_cons.mp hholds
    have hnone : rects.find? r.overlaps = none := by
      refine List.find?_eq_none.mpr ?_
      intro s hs
      rw [Rect.overlaps_of_not_meets hrpos (hpos s hs) (Rect.disjoint_iff.mp (hfirst s hs))]
      exact Bool.false_ne_true
    rw [checkRects, hr, hnone]
    exact ih hpos hholds hothers

/-- A tiling whose rectangles are not empty and fill its grid passes the
check. -/
theorem validate_of_fills {c : Configuration} (hpos : ∀ r ∈ c.rects, 0 < r.width ∧ 0 < r.height)
    (hwords : ∀ r ∈ c.rects, r.InWords) (h : Fills c.rects c.grid) : c.validate = .ok () := by
  have hholds : ∀ r ∈ c.rects, c.grid.holds r = true := fun r hr =>
    (Grid.holds_iff (hwords r hr)).mpr (h.within r hr)
  rw [validate, checkRects_of_disjoint hpos hholds h.disjoint]
  exact if_pos h.totalArea

end Configuration

/-! ### Blocks and what they leave free -/

/-- Of rectangles apart from each other, one covers a cell that is not free. -/
lemma countP_apart {rects : List Rect} (h : rects.Pairwise fun r s => r.overlaps s = false)
    (a b : ℕ) : rects.countP (·.covers a b) = if uncovered rects a b = true then 0 else 1 := by
  induction rects with
  | nil => rfl
  | cons r rects ih =>
    obtain ⟨hfirst, hothers⟩ := List.pairwise_cons.mp h
    rw [List.countP_cons, ih hothers]
    by_cases hr : r.covers a b = true
    · have hfree : ∀ s ∈ rects, s.covers a b = false := by
        intro s hs
        by_contra hcovers
        exact Rect.not_meets_counted (hfirst s hs)
          ⟨a, b, Rect.has_counted.mpr hr, Rect.has_counted.mpr (by simpa using hcovers)⟩
      simpa [uncovered, hr] using hfree
    · simp [uncovered, hr]

variable {grid : Grid} {shape : BlockShape}

/-- The rectangles of a tiling with given blocks are the blocks and what they
leave free. -/
lemma Configuration.rects_ofCandidates (grid : Grid) (chosen : List Candidate) (cost : Cost)
    (table : ℕ × ℕ) :
    (ofCandidates grid chosen cost table).rects =
      chosen.map (·.rect) ++ Tiling.leftover grid (chosen.map (·.rect)) := by
  simp [rects, ofCandidates, Function.comp_def, Placement.ofCandidate]

/-- As far as the checks see them, blocks that do not overlap fill the grid with
what they leave free. -/
lemma fills_counted {chosen : List Candidate}
    (hcorner : ∀ c ∈ chosen, c.rect.x < grid.width ∧ c.rect.y < grid.height)
    (hholds : ∀ c ∈ chosen, grid.holds c.rect = true)
    (hapart : chosen.Pairwise fun c d => c.rect.overlaps d.rect = false) :
    Fills (chosen.map (·.rect.counted) ++ leftover grid (chosen.map (·.rect))) grid := by
  refine fills_of_countP (fun r hr => ?_) fun a b ha hb => ?_
  · rcases List.mem_append.mp hr with hblock | hlogic
    · obtain ⟨c, hc, rfl⟩ := List.mem_map.mp hblock
      have hin := hcorner c hc
      have hheld := hholds c hc
      simp only [Grid.holds, Bool.and_eq_true, decide_eq_true_eq] at hheld
      simp only [Rect.Within, Rect.counted]
      omega
    · exact (leftover_inside hlogic).2
  · -- a cell is under a block, or it is free and in a rectangle of logic
    have hseen : (chosen.map (·.rect.counted)).countP (·.Has a b) =
        (chosen.map (·.rect)).countP (·.covers a b) := by
      rw [List.countP_map, List.countP_map]
      refine List.countP_congr fun c _ => ?_
      simp only [Function.comp, decide_eq_true_eq]
      exact Rect.has_counted
    rw [List.countP_append, hseen, countP_apart (List.pairwise_map.mpr hapart), countP_leftover]
    by_cases hfree : uncovered (chosen.map (·.rect)) a b = true
    · rw [if_pos hfree, if_pos ⟨⟨ha, hb⟩, hfree⟩]
    · rw [if_neg hfree, if_neg fun hboth => hfree hboth.2]

/-- If blocks make a tiling that passes its check, all their far corners can be
counted: as far as the checks see them they have the area of the grid, with what
they leave free, and in all they have no more. -/
theorem inWords_of_validate {chosen : List Candidate} {cost : Cost} {table : ℕ × ℕ}
    (hcorner : ∀ c ∈ chosen, c.rect.x < grid.width ∧ c.rect.y < grid.height)
    (hpos : ∀ c ∈ chosen, 0 < c.rect.width ∧ 0 < c.rect.height)
    (h : (Configuration.ofCandidates grid chosen cost table).validate = .ok ()) :
    (∀ c ∈ chosen, c.rect.InWords) ∧
      Fills (Configuration.ofCandidates grid chosen cost table).rects grid := by
  obtain ⟨hcheck, harea⟩ := Configuration.validate_ok h
  obtain ⟨hapart, hholds⟩ := Configuration.checkRects_ok hcheck
  rw [Configuration.rects_ofCandidates] at hapart hholds harea ⊢
  have hfills := fills_counted hcorner
    (fun c hc => hholds _ (List.mem_append_left _ (List.mem_map_of_mem hc)))
    (List.pairwise_map.mp (List.pairwise_append.mp hapart).1)
  have hseen : (chosen.map (·.rect.counted.area)).sum = (chosen.map (·.rect.area)).sum := by
    have hsum := hfills.totalArea.trans harea.symm
    simp only [Configuration.totalArea_eq, List.map_append, List.sum_append, List.map_map] at hsum
    exact Nat.add_right_cancel hsum
  have hwords : ∀ c ∈ chosen, c.rect.InWords := by
    intro c hc
    refine Rect.inWords_of_counted (hpos c hc) ?_
    by_contra hless
    refine (List.sum_lt_sum _ _ (fun d _ => d.rect.area_counted_le) ⟨c, hc, ?_⟩).ne hseen
    exact Nat.lt_of_not_le hless
  have hall : chosen.map (·.rect.counted) = chosen.map (·.rect) :=
    List.map_congr_left fun c hc => Rect.counted_eq (hwords c hc)
  rw [hall] at hfills
  exact ⟨hwords, hfills⟩

/-! ### Blocks in the grid -/

/-- The far corners of all blocks with their lower left corners in the grid can be
counted in 32 bits, also of rotated ones. -/
def Grid.Counts (grid : Grid) (shape : BlockShape) : Prop :=
  max grid.width grid.height + max shape.width shape.height ≤ 2 ^ 32

instance (grid : Grid) (shape : BlockShape) : Decidable (grid.Counts shape) :=
  inferInstanceAs (Decidable (_ ≤ _))

/-- The block has the sides of the shape, or the exchanged ones if it is rotated.
Only a block with different sides is rotated. -/
structure Placement.Shaped (b : Placement) (shape : BlockShape) : Prop where
  pos : 0 < b.rect.width ∧ 0 < b.rect.height
  sides : (b.rect.width, b.rect.height) =
    if b.rotated then (shape.height, shape.width) else (shape.width, shape.height)
  rotatable : b.rotated = true → shape.width ≠ shape.height

/-- The block lies in the grid and has the sides of the shape. -/
structure Placement.Fits (b : Placement) (grid : Grid) (shape : BlockShape) : Prop
    extends b.Shaped shape where
  within : b.rect.Within grid

/-- A candidate is a block with its corner in the grid, in which it lies as the
checks see it. -/
lemma of_mem_enumerate {c : Candidate} (h : c ∈ Candidate.enumerate grid shape) :
    (Placement.ofCandidate c).Shaped shape ∧
      (c.rect.x < grid.width ∧ c.rect.y < grid.height) ∧ grid.holds c.rect = true := by
  obtain ⟨x, hx, h⟩ := List.mem_flatMap.mp h
  obtain ⟨y, hy, h⟩ := List.mem_flatMap.mp h
  obtain ⟨⟨w, h, rotated⟩, horientation, hcorner⟩ := List.mem_filterMap.mp h
  dsimp only at hcorner
  split_ifs at hcorner with hfits
  cases hcorner
  simp only [Bool.and_eq_true, decide_eq_true_eq] at hfits
  obtain ⟨⟨hw, hh⟩, hholds⟩ := hfits
  refine ⟨?_, ⟨List.mem_range.mp hx, List.mem_range.mp hy⟩, hholds⟩
  rcases List.mem_cons.mp horientation with heq | hrotated
  · cases heq
    exact ⟨⟨hw, hh⟩, rfl, fun hrotated => absurd hrotated Bool.false_ne_true⟩
  · split_ifs at hrotated with hrotatable
    · cases List.mem_singleton.mp hrotated
      exact ⟨⟨hw, hh⟩, rfl, fun _ => by simpa [BlockShape.rotatable] using hrotatable⟩
    · cases hrotated

/-- The far corner of a block can be counted if those of all blocks can. -/
lemma Placement.Shaped.inWords {b : Placement} (h : b.Shaped shape) (hwords : grid.Counts shape)
    (hcorner : b.rect.x < grid.width ∧ b.rect.y < grid.height) : b.rect.InWords := by
  have hsides := h.sides
  rw [Grid.Counts] at hwords
  have hside : b.rect.width ≤ max shape.width shape.height ∧
      b.rect.height ≤ max shape.width shape.height := by
    split_ifs at hsides <;> rw [Prod.mk.injEq] at hsides <;> omega
  constructor <;> omega

/-- A block at a candidate position fits. -/
lemma fits_of_mem_enumerate (hwords : grid.Counts shape) {c : Candidate}
    (h : c ∈ Candidate.enumerate grid shape) :
    (Placement.ofCandidate c).Fits grid shape ∧ c.rect.InWords := by
  obtain ⟨hshaped, hcorner, hholds⟩ := of_mem_enumerate h
  have hinWords : c.rect.InWords := hshaped.inWords hwords hcorner
  exact ⟨⟨hshaped, (Grid.holds_iff hinWords).mp hholds⟩, hinWords⟩

/-! ### Correct tilings -/

/-- A tiling of a grid with blocks of a shape: the blocks fit, all rectangles
lie in the grid, every cell is in exactly one of them, and the tiling passes
its check. -/
structure Configuration.Tiles (c : Configuration) (g : Grid) (shape : BlockShape) : Prop where
  grid : c.grid = g
  blocks : ∀ b ∈ c.placements.toList, b.Fits g shape
  within : ∀ r ∈ c.rects, r.Within g
  once : ∀ a b, a < g.width → b < g.height → c.rects.countP (·.Has a b) = 1
  valid : c.validate = .ok ()

variable {ratio : Float} {table : ℕ × ℕ} {p : Problem}

/-- The candidates of an arrangement whose blocks are apart do not overlap. -/
lemma Problem.Apart.chosen {config : List ℕ} (h : p.Apart config) :
    (config.filterMap (p.candidates[·]?)).Pairwise fun c d => c.rect.overlaps d.rect = false := by
  refine List.pairwise_filterMap.mpr (h.imp ?_)
  intro i j hclash c hc d hd
  rwa [Problem.clash, hc, hd] at hclash

/-- Blocks that fit and do not overlap make a tiling. -/
theorem tiles_of_chosen {chosen : List Candidate} (cost : Cost) (table : ℕ × ℕ)
    (hgrid : grid.InWords)
    (hfits : ∀ c ∈ chosen, (Placement.ofCandidate c).Fits grid shape)
    (hapart : chosen.Pairwise fun c d => c.rect.overlaps d.rect = false) :
    (Configuration.ofCandidates grid chosen cost table).Tiles grid shape := by
  have hwords : ∀ c ∈ chosen, c.rect.InWords := fun c hc => (hfits c hc).within.inWords hgrid
  have hcorner : ∀ c ∈ chosen, c.rect.x < grid.width ∧ c.rect.y < grid.height := by
    intro c hc
    obtain ⟨⟨⟨hw, hh⟩, -, -⟩, hright, htop⟩ := hfits c hc
    simp only [Placement.ofCandidate] at hw hh hright htop
    omega
  have hfills := fills_counted hcorner
    (fun c hc => (Grid.holds_iff (hwords c hc)).mpr (hfits c hc).within) hapart
  have hall : chosen.map (·.rect.counted) = chosen.map (·.rect) :=
    List.map_congr_left fun c hc => Rect.counted_eq (hwords c hc)
  rw [hall, ← Configuration.rects_ofCandidates grid chosen cost table] at hfills
  have hpos : ∀ r ∈ (Configuration.ofCandidates grid chosen cost table).rects,
      0 < r.width ∧ 0 < r.height := by
    intro r hr
    rw [Configuration.rects_ofCandidates] at hr
    rcases List.mem_append.mp hr with hblock | hlogic
    · obtain ⟨c, hc, rfl⟩ := List.mem_map.mp hblock
      exact (hfits c hc).pos
    · exact (leftover_inside hlogic).1
  refine ⟨rfl, ?_, hfills.within, fun a b => hfills.countP, Configuration.validate_of_fills hpos
    (fun r hr => (hfills.within r hr).inWords hgrid) hfills⟩
  intro b hb
  obtain ⟨c, hc, rfl⟩ := List.mem_map.mp (List.mem_toArray.mp (Array.mem_toList_iff.mp hb))
  exact hfits c hc

/-- There is a problem for a grid and blocks that are not empty. -/
lemma Problem.exists_make (hgrid : 0 < grid.area) (hshape : 0 < shape.area) (ratio : Float)
    (table : ℕ × ℕ) : ∃ p, Problem.make grid shape ratio table = .ok p := by
  rw [Problem.make, if_neg (by omega)]
  exact ⟨_, rfl⟩

/-- What a problem that was made is about. -/
lemma Problem.make_eq_ok (hmake : Problem.make grid shape ratio table = .ok p) :
    p.grid = grid ∧ p.table = table ∧ p.cost = .weights ratio shape.area ∧
      p.candidates = (Candidate.enumerate grid shape).toArray := by
  rw [make] at hmake
  split_ifs at hmake
  cases hmake
  exact ⟨rfl, rfl, rfl, rfl⟩

/-- A candidate with a number is a block in the grid. -/
lemma Problem.mem_enumerate (hmake : Problem.make grid shape ratio table = .ok p) {i : ℕ}
    {c : Candidate} (h : p.candidates[i]? = some c) : c ∈ Candidate.enumerate grid shape := by
  obtain ⟨-, -, -, hcandidates⟩ := Problem.make_eq_ok hmake
  rw [hcandidates] at h
  exact List.mem_toArray.mp (Array.mem_of_getElem? h)

/-- The sides of a grid can be counted if the far corners of its blocks can. -/
lemma Grid.Counts.inWords (h : grid.Counts shape)
    (hmake : Problem.make grid shape ratio table = .ok p) : grid.InWords := by
  have hshape : 0 < shape.area := by
    rw [Problem.make] at hmake
    split_ifs at hmake with hempty
    omega
  have hpos := Nat.pos_of_mul_pos_left hshape
  rw [Grid.Counts] at h
  constructor <;> omega

/-- No two blocks of the arrangement have a cell in common. -/
def Problem.Separate (p : Problem) (config : List ℕ) : Prop :=
  config.Pairwise fun i j =>
    ∀ c ∈ p.candidates[i]?, ∀ d ∈ p.candidates[j]?, ¬ c.rect.Meets d.rect

instance (p : Problem) (config : List ℕ) : Decidable (p.Separate config) :=
  inferInstanceAs (Decidable (config.Pairwise _))

/-- Blocks that the checks take for disjoint are, if their far corners can be
counted. -/
lemma Problem.apart_iff (hmake : Problem.make grid shape ratio table = .ok p)
    (hwords : grid.Counts shape) (config : List ℕ) : p.Apart config ↔ p.Separate config := by
  refine List.Pairwise.iff fun i j => ?_
  rw [clash]
  cases hi : p.candidates[i]? with
  | none => simp
  | some c =>
    cases hj : p.candidates[j]? with
    | none => simp
    | some d =>
      obtain ⟨hc, hcwords⟩ := fits_of_mem_enumerate hwords (mem_enumerate hmake hi)
      obtain ⟨hd, hdwords⟩ := fits_of_mem_enumerate hwords (mem_enumerate hmake hj)
      simp [← Rect.overlaps_iff hcwords hdwords hc.pos hd.pos]

/-- An arrangement whose blocks are apart makes a tiling. -/
theorem tiles_of_apart (hmake : Problem.make grid shape ratio table = .ok p)
    (hwords : grid.Counts shape) {config : List ℕ} (h : p.Apart config) :
    (p.evaluate config).Tiles grid shape := by
  obtain ⟨rfl, -⟩ := Problem.make_eq_ok hmake
  refine tiles_of_chosen _ _ (hwords.inWords hmake) ?_ h.chosen
  intro c hc
  obtain ⟨i, -, hi⟩ := List.mem_filterMap.mp hc
  exact (fits_of_mem_enumerate hwords (Problem.mem_enumerate hmake hi)).1

/-- **A search returns a correct tiling.** Whatever the grid, the blocks, the
tables, the preference, the budget and the strategy are, the tiling that a
search returns is a correct one; so is the one that a random walk returns,
whatever the random choices are. There is such a tiling unless the clock
cannot count the time. -/
theorem tiles_of_search [Surroundings] (hgrid : 0 < grid.area) (hshape : 0 < shape.area)
    (hwords : grid.Counts shape) (ratio : Float) (table : ℕ × ℕ) (b : Budget) (clock : Clock) :
    ∃ p, Problem.make grid shape ratio table = .ok p ∧
      (∀ strategy, ((Search.start p b clock).run strategy).best.Tiles grid shape ∧
        (b.time < clockSpan → ((Search.start p b clock).run strategy).overrun = false)) ∧
      ∀ {σ : Type} (source : Random.Source σ) (random : σ),
        (anneal source random (Search.start p b clock)).outcome.best.Tiles grid shape ∧
          (b.time < clockSpan →
            (anneal source random (Search.start p b clock)).outcome.overrun = false) := by
  obtain ⟨p, hmake⟩ := Problem.exists_make hgrid hshape ratio table
  have hall : ∀ config, p.Apart config → (p.evaluate config).Tiles grid shape :=
    fun config h => tiles_of_apart hmake hwords h
  refine ⟨p, hmake, ?_, ?_⟩
  · intro strategy
    exact Search.run_best (Q := (·.Tiles grid shape)) hall b clock strategy
  · intro σ source random
    exact Search.anneal_outcome (Q := (·.Tiles grid shape)) hall b clock source random

/-- A random source that always chooses the last of many. -/
def alwaysLast : Random.Source Unit where
  few _ r := (0, r)
  many bound r := (bound - 1, r)
  unit r := (0.5, r)

theorem tiles_of_search_alwaysLast :
    0 < (Grid.mk 5 3).area ∧ 0 < (BlockShape.mk 2 1).area ∧ (Grid.mk 5 3).Counts ⟨2, 1⟩ ∧
      ∃ p, Problem.make ⟨5, 3⟩ ⟨2, 1⟩ 0.5 (2, 2) = .ok p ∧
        ((Search.start p ⟨0, some 7⟩).run .exhaustive).best.Tiles ⟨5, 3⟩ ⟨2, 1⟩ ∧
        (anneal alwaysLast () (Search.start p ⟨0, some 7⟩)).outcome.best.Tiles ⟨5, 3⟩ ⟨2, 1⟩ := by
  have hgrid : 0 < (Grid.mk 5 3).area := by decide
  have hshape : 0 < (BlockShape.mk 2 1).area := by decide
  have hwords : (Grid.mk 5 3).Counts ⟨2, 1⟩ := by decide
  obtain ⟨p, hmake, hrun, hwalk⟩ :=
    tiles_of_search hgrid hshape hwords 0.5 (2, 2) ⟨0, some 7⟩ .still
  exact ⟨hgrid, hshape, hwords, p, hmake, (hrun .exhaustive).1, (hwalk alwaysLast ()).1⟩

/-- One block, which begins in the second column of the grid and ends so far behind
it that its far corner cannot be counted. -/
def reaching : Problem where
  grid := ⟨2, 1⟩
  cost := .weights 1.0 (2 ^ 32 - 1)
  table := (1, 1)
  candidates := #[⟨⟨1, 0, 2 ^ 32 - 1, 1⟩, false⟩]

/-- A single cell, too small for a block. -/
def oneCell : Problem where
  grid := ⟨1, 1⟩
  cost := .weights 1.0 4
  table := (1, 1)
  candidates := #[]

lemma make_oneCell : Problem.make ⟨1, 1⟩ ⟨2, 2⟩ 1.0 (1, 1) = .ok oneCell := rfl

/-- More time than the clock can count, but a duration nonetheless. -/
def ages : Budget := ⟨12 * 10 ^ 27, none⟩

/-- Not every search returns a correct tiling. In the first problem all the time is
the share of a single arrangement, and it outlasts the clock. In the second one the
block is taken for a candidate, and the tiling has it if there is no time to look
for anything else. -/
theorem search_without_tiling :
    (∃ p, Problem.make ⟨1, 1⟩ ⟨2, 2⟩ 1.0 (1, 1) = .ok p ∧
      ((Search.start p ages).run .exhaustive).overrun = true) ∧
    ∃ p, Problem.make ⟨2, 1⟩ ⟨2 ^ 32 - 1, 1⟩ 1.0 (1, 1) = .ok p ∧
      ¬ ((Search.start p ⟨0, none⟩).run .exhaustive).best.Tiles ⟨2, 1⟩ ⟨2 ^ 32 - 1, 1⟩ := by
  refine ⟨⟨oneCell, make_oneCell, ?_⟩, reaching, rfl, fun htiles => ?_⟩
  · exact Search.overrun_exhaustive _ (by decide +kernel)
  · have hbest : ((Search.start reaching ⟨0, none⟩).run .exhaustive).best.rects =
        [⟨1, 0, 2 ^ 32 - 1, 1⟩, ⟨0, 0, 2, 1⟩] := by decide +kernel
    have hwithin := htiles.within ⟨1, 0, 2 ^ 32 - 1, 1⟩ (by rw [hbest]; exact List.mem_cons_self)
    exact absurd hwithin (by decide)

end Datapath.Tiling
