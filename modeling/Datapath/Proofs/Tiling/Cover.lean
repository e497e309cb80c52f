/-
Tilings that pass their check.

* `Rect.disjoint_cells`: rectangles that do not overlap share no cell.
* `Fills`: rectangles without common cells that make up a grid together;
  `Fills.sum_cells`: a sum over the grid is the sum over the rectangles.
* `fills_of_validate`: the rectangles of a tiling that passes its check fill
  the grid, because they have its area. Their far corners have to be counted.
-/
import Datapath.Proofs.Product.Cells
import Datapath.Proofs.Steps
import Datapath.Proofs.Tiling.Geometry
import Datapath.Tiling.Configuration

namespace Datapath.Tiling

/-! ### Rectangles apart from each other -/

lemma Rect.mem_cells_iff {r : Rect} {a b : ℕ} : (a, b) ∈ r.cells ↔ r.Has a b := Rect.mem_cells

/-- Rectangles have no cell in common if their cells are disjoint. -/
lemma Rect.disjoint_iff {r s : Rect} : Disjoint r.cells s.cells ↔ ¬ r.Meets s := by
  rw [Finset.disjoint_left]
  constructor
  · rintro hdisjoint ⟨a, b, hr, hs⟩
    exact hdisjoint (Rect.mem_cells_iff.mpr hr) (Rect.mem_cells_iff.mpr hs)
  · rintro hapart ⟨a, b⟩ hr hs
    exact hapart ⟨a, b, Rect.mem_cells_iff.mp hr, Rect.mem_cells_iff.mp hs⟩

lemma Rect.disjoint_cells {r s : Rect} (hr : r.InWords) (hs : s.InWords)
    (h : r.overlaps s = false) : Disjoint r.cells s.cells := by
  rw [Rect.disjoint_iff, ← Rect.counted_eq hr, ← Rect.counted_eq hs]
  exact Rect.not_meets_counted h

/-- The rectangle of all cells of a grid. -/
def Grid.whole (g : Grid) : Rect := ⟨0, 0, g.width, g.height⟩

lemma Grid.cells_subset {g : Grid} {r : Rect} (h : r.Within g) : r.cells ⊆ g.whole.cells := by
  intro c hc
  have hmem := Rect.mem_cells.mp hc
  rw [Rect.Within] at h
  exact Rect.mem_cells.mpr (by simp only [Grid.whole]; omega)

/-- The cells of some rectangles. -/
def allCells (rects : List Rect) : Finset (ℕ × ℕ) := rects.foldr (fun r cells => r.cells ∪ cells) ∅

lemma mem_allCells {rects : List Rect} {c : ℕ × ℕ} :
    c ∈ allCells rects ↔ ∃ r ∈ rects, c ∈ r.cells := by
  induction rects with
  | nil => simp [allCells]
  | cons r rects ih =>
    simp only [List.mem_cons, exists_eq_or_imp, ← ih]
    exact Finset.mem_union

/-- A sum over disjoint rectangles. -/
lemma sum_allCells {M : Type} [AddCommMonoid M] {rects : List Rect}
    (h : rects.Pairwise fun r s => Disjoint r.cells s.cells) (f : ℕ × ℕ → M) :
    ∑ c ∈ allCells rects, f c = (rects.map fun r => ∑ c ∈ r.cells, f c).sum := by
  induction rects with
  | nil => rfl
  | cons r rects ih =>
    obtain ⟨hfirst, hothers⟩ := List.pairwise_cons.mp h
    have hdisjoint : Disjoint r.cells (allCells rects) := Finset.disjoint_left.mpr fun c hr hc => by
      obtain ⟨s, hs, hcs⟩ := mem_allCells.mp hc
      exact Finset.disjoint_left.mp (hfirst s hs) hr hcs
    rw [List.map_cons, List.sum_cons, ← ih hothers]
    exact Finset.sum_union hdisjoint

/-! ### Rectangles that fill a grid -/

/-- The rectangles lie in the grid and every cell of it is in one of them. -/
structure Fills (rects : List Rect) (g : Grid) : Prop where
  disjoint : rects.Pairwise fun r s => Disjoint r.cells s.cells
  within : ∀ r ∈ rects, r.Within g
  cells : allCells rects = g.whole.cells

/-- A sum over the grid is the sum over the rectangles that fill it. -/
lemma Fills.sum_cells {M : Type} [AddCommMonoid M] {rects : List Rect} {g : Grid}
    (h : Fills rects g) (f : ℕ × ℕ → M) :
    (rects.map fun r => ∑ c ∈ r.cells, f c).sum = ∑ c ∈ g.whole.cells, f c := by
  rw [← sum_allCells h.disjoint, h.cells]

namespace Configuration

lemma checkRects_ok {g : Grid} {rects : List Rect} (h : checkRects g rects = .ok ()) :
    rects.Pairwise (fun r s => r.overlaps s = false) ∧ ∀ r ∈ rects, g.holds r = true := by
  induction rects with
  | nil => exact ⟨.nil, fun r hr => absurd hr List.not_mem_nil⟩
  | cons r rects ih =>
    rw [checkRects] at h
    split_ifs at h with hholds
    split at h
    case h_1 => cases h
    case h_2 hnone =>
      obtain ⟨hpairs, hall⟩ := ih h
      have hfirst : ∀ s ∈ rects, r.overlaps s = false := by simpa using hnone
      exact ⟨.cons hfirst hpairs, List.forall_mem_cons.mpr ⟨by simpa using hholds, hall⟩⟩

lemma totalArea_eq (rects : List Rect) : totalArea rects = (rects.map Rect.area).sum := by
  induction rects with
  | nil => rfl
  | cons r rects ih => rw [List.map_cons, List.sum_cons, ← ih]; rfl

/-- A tiling that passes its check passes both parts of it. -/
lemma validate_ok {c : Configuration} (h : c.validate = .ok ()) :
    checkRects c.grid c.rects = .ok () ∧ totalArea c.rects = c.grid.area := by
  obtain ⟨_, hcheck, hrest⟩ := except_bind_eq_ok.mp h
  dsimp only at hrest
  split_ifs at hrest with harea
  exact ⟨hcheck, harea⟩

/-- The rectangles of a tiling that passes its check fill its grid: disjoint
cells of the same number as those of the grid are all of them. -/
theorem fills_of_validate {c : Configuration} (hwords : ∀ r ∈ c.rects, r.InWords)
    (h : c.validate = .ok ()) : Fills c.rects c.grid := by
  obtain ⟨hcheck, harea⟩ := validate_ok h
  obtain ⟨hapart, hholds⟩ := checkRects_ok hcheck
  have hdisjoint : c.rects.Pairwise fun r s => Disjoint r.cells s.cells :=
    hapart.imp_of_mem fun hr hs => Rect.disjoint_cells (hwords _ hr) (hwords _ hs)
  have hwithin : ∀ r ∈ c.rects, r.Within c.grid := fun r hr =>
    (Grid.holds_iff (hwords r hr)).mp (hholds r hr)
  refine ⟨hdisjoint, hwithin, Finset.eq_of_subset_of_card_le (fun cell hcell => ?_) ?_⟩
  · obtain ⟨r, hr, hcr⟩ := mem_allCells.mp hcell
    exact Grid.cells_subset (hwithin r hr) hcr
  · have hcard := sum_allCells hdisjoint fun _ => 1
    simp only [Finset.sum_const, smul_eq_mul, mul_one, Rect.card_cells] at hcard
    rw [hcard, ← totalArea_eq, harea, Rect.card_cells]
    exact le_rfl

end Configuration

end Datapath.Tiling
