/-
Rectangles on top of each other.

* `Rect.Above`: a rectangle directly on top of another one.
* `stack`: the rectangle that rectangles on top of each other make up.
* `sum_stack`, `stack_within`: its cells are theirs, and it lies in a grid if
  they do.
-/
import Datapath.Proofs.Product.Cells
import Datapath.Proofs.Tiling.Geometry

namespace Datapath.Tiling

variable {r : Rect} {rs : List Rect}

/-- A rectangle directly on top of another one, with the same columns. -/
def Rect.Above (r s : Rect) : Prop := s.x = r.x ∧ s.width = r.width ∧ s.y = r.y + r.height

/-- The rectangle of the columns of `r`, as high as all rectangles together. -/
def stack (r : Rect) (rs : List Rect) : Rect :=
  { r with height := r.height + (rs.map (·.height)).sum }

lemma stack_cons {s : Rect} (h : r.Above s) (rs : List Rect) :
    stack r (s :: rs) = ⟨r.x, r.y, r.width, r.height + (stack s rs).height⟩ ∧
      stack s rs = ⟨r.x, r.y + r.height, r.width, (stack s rs).height⟩ := by
  obtain ⟨hx, hwidth, hy⟩ := h
  exact ⟨rfl, by rw [stack, hx, hwidth, hy]⟩

/-- The cells of a stack are those of its rectangles. -/
lemma sum_stack {M : Type} [AddCommMonoid M] (h : (r :: rs).IsChain Rect.Above) (f : ℕ × ℕ → M) :
    ∑ c ∈ (stack r rs).cells, f c = ((r :: rs).map fun s => ∑ c ∈ s.cells, f c).sum := by
  induction rs generalizing r with
  | nil => rw [List.map_singleton, List.sum_singleton]; rfl
  | cons s rs ih =>
    obtain ⟨habove, hrest⟩ := List.isChain_cons_cons.mp h
    obtain ⟨hstack, htop⟩ := stack_cons habove rs
    rw [List.map_cons, List.sum_cons, ← ih hrest, hstack, Rect.sum_cells_add_height, ← htop]

/-- A stack lies in the grid in which its rectangles do. -/
lemma stack_within {g : Grid} (h : (r :: rs).IsChain Rect.Above)
    (hwithin : ∀ s ∈ r :: rs, s.Within g) : (stack r rs).Within g := by
  induction rs generalizing r with
  | nil => exact hwithin r List.mem_cons_self
  | cons s rs ih =>
    obtain ⟨habove, hrest⟩ := List.isChain_cons_cons.mp h
    obtain ⟨hr, hrs⟩ := List.forall_mem_cons.mp hwithin
    obtain ⟨hstack, htop⟩ := stack_cons habove rs
    have hall := ih hrest hrs
    rw [htop] at hall
    rw [hstack]
    simp only [Rect.Within] at hall hr ⊢
    omega

/-- The lowest corner of a stack is that of its first rectangle. -/
lemma le_corner_of_stacked (h : (r :: rs).IsChain Rect.Above) {s : Rect} (hs : s ∈ r :: rs) :
    r.x + r.y ≤ s.x + s.y := by
  induction rs generalizing r with
  | nil => rw [List.mem_singleton.mp hs]
  | cons q rs ih =>
    obtain ⟨⟨hx, -, hy⟩, hrest⟩ := List.isChain_cons_cons.mp h
    rcases List.mem_cons.mp hs with rfl | hs
    · exact le_rfl
    · have hle := ih hrest hs
      omega

/-- The products on the rectangles of a stack, at their places, make up the
product on the stack. -/
lemma stack_product (h : (r :: rs).IsChain Rect.Above) (a b : ℕ) :
    (stack r rs).product a b * 2 ^ (r.x + r.y) =
      ((r :: rs).map fun s => s.product a b * 2 ^ (s.x + s.y)).sum := by
  simp only [Rect.product_eq]
  rw [← sum_stack h, ← Rect.product_eq]
  rfl

end Datapath.Tiling
