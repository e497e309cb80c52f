/-
Rectangles and their corners in words.

* `Rect.Has`, `Rect.Within`, `Rect.Meets`, `Rect.Leaves`: the cells of a
  rectangle, whether all of them lie in a grid, and whether two rectangles have
  one in common.
* `Rect.InWords`: the far corner is one that can be counted. Then the checks of
  rectangles are about their cells (`Rect.covers_iff`, `Grid.holds_iff`,
  `Rect.overlaps_iff`).
* `Rect.counted`: what the checks see of any rectangle. It is never more than the
  rectangle, and less if the far corner cannot be counted (`inWords_of_counted`).
-/
import Datapath.Proofs.Words
import Datapath.Tiling.Placement
import Mathlib.Algebra.Order.Group.Nat
import Mathlib.Tactic.ByContra
import Mathlib.Tactic.Lemma
import Mathlib.Tactic.Tauto

namespace Datapath.Tiling

variable {g : Grid} {r s : Rect} {a b : ℕ}

/-- The sides of the grid can be counted in 32 bits. -/
def Grid.InWords (g : Grid) : Prop := g.width < 2 ^ 32 ∧ g.height < 2 ^ 32

instance (g : Grid) : Decidable g.InWords := inferInstanceAs (Decidable (_ ∧ _))

/-- The cells of such a grid can be counted in 64 bits. -/
lemma Grid.InWords.area_lt (h : g.InWords) : g.area < 2 ^ 64 :=
  calc g.width * g.height ≤ (2 ^ 32 - 1) * (2 ^ 32 - 1) :=
        Nat.mul_le_mul (Nat.le_sub_one_of_lt h.1) (Nat.le_sub_one_of_lt h.2)
    _ < 2 ^ 64 := by decide

namespace Rect

/-! ### Cells -/

/-- The cell `(a, b)` lies in the rectangle. -/
def Has (r : Rect) (a b : ℕ) : Prop :=
  (r.x ≤ a ∧ a < r.x + r.width) ∧ r.y ≤ b ∧ b < r.y + r.height

instance (r : Rect) (a b : ℕ) : Decidable (r.Has a b) := inferInstanceAs (Decidable (_ ∧ _))

/-- The rectangle lies in the grid. -/
def Within (r : Rect) (g : Grid) : Prop :=
  r.x + r.width ≤ g.width ∧ r.y + r.height ≤ g.height

instance (r : Rect) (g : Grid) : Decidable (r.Within g) := inferInstanceAs (Decidable (_ ∧ _))

/-- The two rectangles have a cell in common. -/
def Meets (r s : Rect) : Prop := ∃ a b, r.Has a b ∧ s.Has a b

/-- Two rectangles have a cell in common if both have that of the nearer corner. -/
lemma meets_iff :
    r.Meets s ↔ r.Has (max r.x s.x) (max r.y s.y) ∧ s.Has (max r.x s.x) (max r.y s.y) := by
  constructor
  · rintro ⟨a, b, hr, hs⟩
    simp only [Has] at hr hs ⊢
    omega
  · exact fun h => ⟨_, _, h⟩

instance (r s : Rect) : Decidable (r.Meets s) := decidable_of_iff' _ meets_iff

lemma meets_self (hr : 0 < r.width ∧ 0 < r.height) : r.Meets r :=
  meets_iff.mpr (by simp only [Has]; omega)

/-- The far corner of the rectangle can be counted in 32 bits. -/
def InWords (r : Rect) : Prop := r.x + r.width < 2 ^ 32 ∧ r.y + r.height < 2 ^ 32

instance (r : Rect) : Decidable r.InWords := inferInstanceAs (Decidable (_ ∧ _))

lemma right_eq (h : r.InWords) : r.right = r.x + r.width := wrap32_of_lt h.1

lemma top_eq (h : r.InWords) : r.top = r.y + r.height := wrap32_of_lt h.2

lemma right_le (r : Rect) : r.right ≤ r.x + r.width := Nat.mod_le _ _

lemma top_le (r : Rect) : r.top ≤ r.y + r.height := Nat.mod_le _ _

/-- A rectangle in a grid whose sides can be counted. -/
lemma Within.inWords (h : r.Within g) (hg : g.InWords) : r.InWords :=
  ⟨h.1.trans_lt hg.1, h.2.trans_lt hg.2⟩

/-- Rectangles that are not empty overlap if they have a cell in common. -/
lemma overlaps_iff (hr : r.InWords) (hs : s.InWords) (hrpos : 0 < r.width ∧ 0 < r.height)
    (hspos : 0 < s.width ∧ 0 < s.height) : r.overlaps s = true ↔ r.Meets s := by
  simp only [overlaps, right_eq hr, right_eq hs, top_eq hr, top_eq hs, Bool.and_eq_true,
    decide_eq_true_eq, meets_iff, Has]
  omega

/-! ### What the checks see -/

/-- What the checks see of a rectangle: the cells up to the far corner, as it is
counted. -/
def counted (r : Rect) : Rect := ⟨r.x, r.y, r.right - r.x, r.top - r.y⟩

lemma has_counted : r.counted.Has a b ↔ r.covers a b = true := by
  simp only [covers, counted, Has, Bool.and_eq_true, decide_eq_true_eq]
  omega

lemma counted_eq (h : r.InWords) : r.counted = r := by
  simp only [counted, right_eq h, top_eq h, Nat.add_sub_cancel_left]

/-- Of two rectangles that do not overlap, the checks see no common cell. -/
lemma not_meets_counted (h : r.overlaps s = false) : ¬ r.counted.Meets s.counted := by
  rintro ⟨a, b, hr, hs⟩
  simp only [overlaps, Bool.and_eq_false_iff, decide_eq_false_iff_not] at h
  simp only [counted, Has] at hr hs
  omega

/-- The checks see no overlap that is not there. -/
lemma overlaps_of_not_meets (hr : 0 < r.width ∧ 0 < r.height) (hs : 0 < s.width ∧ 0 < s.height)
    (h : ¬ r.Meets s) : r.overlaps s = false := by
  by_contra hoverlaps
  simp only [overlaps, Bool.not_eq_false, Bool.and_eq_true, decide_eq_true_eq] at hoverlaps
  have hright := r.right_le
  have htop := r.top_le
  have hright' := s.right_le
  have htop' := s.top_le
  refine h (meets_iff.mpr ?_)
  simp only [Has]
  omega

lemma area_counted_le (r : Rect) : r.counted.area ≤ r.area :=
  Nat.mul_le_mul (by have := r.right_le; simp only [counted]; omega)
    (by have := r.top_le; simp only [counted]; omega)

/-- If the checks see all of a rectangle, its far corner can be counted. -/
lemma inWords_of_counted (hr : 0 < r.width ∧ 0 < r.height) (h : r.area ≤ r.counted.area) :
    r.InWords := by
  have hright := r.right_le
  have htop := r.top_le
  have hwidth : r.counted.width ≤ r.width := by simp only [counted]; omega
  have hheight : r.counted.height ≤ r.height := by simp only [counted]; omega
  have hside : r.width ≤ r.counted.width ∧ r.height ≤ r.counted.height := by
    constructor
    · exact Nat.le_of_mul_le_mul_right (h.trans (Nat.mul_le_mul_left _ hheight)) hr.2
    · exact Nat.le_of_mul_le_mul_left (h.trans (Nat.mul_le_mul_right _ hwidth)) hr.1
  have hx := wrap32_lt (r.x + r.width)
  have hy := wrap32_lt (r.y + r.height)
  simp only [counted, right, top] at hside hright htop
  constructor <;> omega

end Rect

lemma Grid.holds_iff (h : r.InWords) : g.holds r = true ↔ r.Within g := by
  rw [holds, Bool.and_eq_true, decide_eq_true_eq, decide_eq_true_eq, r.right_eq h, r.top_eq h]
  rfl

end Datapath.Tiling
