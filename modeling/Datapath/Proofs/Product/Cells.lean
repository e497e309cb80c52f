/-
Products as sums over cells.

* `chunk`: some bits of a number; `chunk_mul_pow` is their sum.
* `Rect.cells`: the cells of a rectangle, and `Rect.product_eq`: the product of
  the chunks on its sides is the sum of the bits in its cells.
* `Rect.lowSum`: the greatest sum of the cells below some column;
  `lowSum_grid_le` bounds it by that of all columns, `columnsSum`.
* `lostPart`: what a number loses with its low bits; `lostPart_le`: a product
  on a rectangle loses no more than the cells below some column.
-/
import Datapath.Proofs.Words
import Datapath.Tiling.Rect
import Mathlib.Algebra.Order.Antidiag.Nat
import Mathlib.Algebra.Order.BigOperators.Group.Finset
import Mathlib.Algebra.BigOperators.NatAntidiagonal
import Mathlib.Algebra.Order.Ring.GeomSum

namespace Datapath

/-! ### Chunks -/

/-- Bits `lo` to `lo + width` of a number. -/
def chunk (n lo width : ℕ) : ℕ := n / 2 ^ lo % 2 ^ width

lemma chunk_lt (n lo width : ℕ) : chunk n lo width < 2 ^ width := Nat.mod_lt _ (by positivity)

lemma chunk_zero (n width : ℕ) : chunk n 0 width = n % 2 ^ width := by
  rw [chunk, pow_zero, Nat.div_one]

/-- A chunk at its place is the sum of its bits. -/
lemma chunk_mul_pow (n lo width : ℕ) :
    chunk n lo width * 2 ^ lo = ∑ i ∈ Finset.Ico lo (lo + width), n / 2 ^ i % 2 * 2 ^ i := by
  rw [Finset.sum_Ico_eq_sum_range, Nat.add_sub_cancel_left, chunk, ← sum_bits, Finset.sum_mul]
  refine Finset.sum_congr rfl ?_
  intro i _
  rw [Nat.div_div_eq_div_mul, ← pow_add, pow_add 2 lo i]
  ring

/-- The powers of two below a power of two. -/
lemma sum_two_pow (n : ℕ) : ∑ i ∈ Finset.range n, 2 ^ i = 2 ^ n - 1 := by
  induction n with
  | zero => rfl
  | succ n ih =>
    have hpos : 0 < 2 ^ n := by positivity
    rw [Finset.sum_range_succ, ih, pow_succ]
    omega

lemma sum_Ico_two_pow (lo width : ℕ) :
    ∑ i ∈ Finset.Ico lo (lo + width), 2 ^ i = (2 ^ width - 1) * 2 ^ lo := by
  rw [Finset.sum_Ico_eq_sum_range, Nat.add_sub_cancel_left, ← sum_two_pow, Finset.sum_mul]
  exact Finset.sum_congr rfl fun i _ => by rw [pow_add, Nat.mul_comm]

/-- The greatest sum of the lowest columns of a product. Column `j` has at most
`j + 1` bits. -/
def columnsSum (count : ℕ) : ℕ := ∑ j ∈ Finset.range count, (j + 1) * 2 ^ j

lemma columnsSum_zero : columnsSum 0 = 0 := rfl

lemma columnsSum_succ (count : ℕ) :
    columnsSum (count + 1) = columnsSum count + (count + 1) * 2 ^ count :=
  Finset.sum_range_succ _ _

namespace Tiling.Rect

/-! ### Cells -/

/-- The cells of a rectangle. -/
def cells (r : Rect) : Finset (ℕ × ℕ) :=
  Finset.Ico r.x (r.x + r.width) ×ˢ Finset.Ico r.y (r.y + r.height)

lemma mem_cells {r : Rect} {c : ℕ × ℕ} :
    c ∈ r.cells ↔
      (r.x ≤ c.1 ∧ c.1 < r.x + r.width) ∧ r.y ≤ c.2 ∧ c.2 < r.y + r.height := by
  rw [cells, Finset.mem_product, Finset.mem_Ico, Finset.mem_Ico]

lemma card_cells (r : Rect) : r.cells.card = r.area := by
  rw [cells, Finset.card_product, Nat.card_Ico, Nat.card_Ico, Nat.add_sub_cancel_left,
    Nat.add_sub_cancel_left, area]

/-- A rectangle cut from bottom to top. -/
lemma sum_cells_add_width {M : Type} [AddCommMonoid M] (x y w w' h : ℕ) (f : ℕ × ℕ → M) :
    ∑ c ∈ (Rect.mk x y (w + w') h).cells, f c =
      ∑ c ∈ (Rect.mk x y w h).cells, f c + ∑ c ∈ (Rect.mk (x + w) y w' h).cells, f c := by
  simp only [cells, Finset.sum_product]
  rw [← Nat.add_assoc, Finset.sum_Ico_consecutive _ (Nat.le_add_right _ _) (Nat.le_add_right _ _)]

/-- A rectangle cut from side to side. -/
lemma sum_cells_add_height {M : Type} [AddCommMonoid M] (x y w h h' : ℕ) (f : ℕ × ℕ → M) :
    ∑ c ∈ (Rect.mk x y w (h + h')).cells, f c =
      ∑ c ∈ (Rect.mk x y w h).cells, f c + ∑ c ∈ (Rect.mk x (y + h) w h').cells, f c := by
  simp only [cells, Finset.sum_product, ← Finset.sum_add_distrib]
  refine Finset.sum_congr rfl ?_
  intro i _
  rw [← Nat.add_assoc, Finset.sum_Ico_consecutive _ (Nat.le_add_right _ _) (Nat.le_add_right _ _)]

/-- The product of the chunks of two numbers on the sides of a rectangle. -/
def product (r : Rect) (a b : ℕ) : ℕ := chunk a r.x r.width * chunk b r.y r.height

lemma product_lt (r : Rect) (a b : ℕ) : r.product a b < 2 ^ (r.width + r.height) := by
  rw [pow_add]
  exact Nat.mul_lt_mul'' (chunk_lt _ _ _) (chunk_lt _ _ _)

lemma product_le (r : Rect) (a b : ℕ) :
    r.product a b ≤ (2 ^ r.width - 1) * (2 ^ r.height - 1) :=
  Nat.mul_le_mul (Nat.le_sub_one_of_lt (chunk_lt _ _ _)) (Nat.le_sub_one_of_lt (chunk_lt _ _ _))

/-- The product on a rectangle at its place is the sum of the bits in its
cells. -/
lemma product_eq (r : Rect) (a b : ℕ) :
    r.product a b * 2 ^ (r.x + r.y) =
      ∑ c ∈ r.cells, a / 2 ^ c.1 % 2 * (b / 2 ^ c.2 % 2) * 2 ^ (c.1 + c.2) := by
  calc r.product a b * 2 ^ (r.x + r.y)
      = chunk a r.x r.width * 2 ^ r.x * (chunk b r.y r.height * 2 ^ r.y) := by
        rw [product, pow_add]
        ring
    _ = _ := by
        rw [chunk_mul_pow, chunk_mul_pow, Finset.sum_mul_sum, ← Finset.sum_product', cells]
        exact Finset.sum_congr rfl fun c _ => by rw [pow_add]; ring

/-- The greatest sum of the cells of a rectangle below column `t`. -/
def lowSum (r : Rect) (t : ℕ) : ℕ :=
  ∑ c ∈ r.cells, if c.1 + c.2 < t then 2 ^ (c.1 + c.2) else 0

lemma lowSum_add_width (x y w w' h t : ℕ) :
    (Rect.mk x y (w + w') h).lowSum t =
      (Rect.mk x y w h).lowSum t + (Rect.mk (x + w) y w' h).lowSum t :=
  sum_cells_add_width x y w w' h _

lemma lowSum_add_height (x y w h h' t : ℕ) :
    (Rect.mk x y w (h + h')).lowSum t =
      (Rect.mk x y w h).lowSum t + (Rect.mk x (y + h) w h').lowSum t :=
  sum_cells_add_height x y w h h' _

lemma lowSum_of_area {r : Rect} (h : r.area = 0) (t : ℕ) : r.lowSum t = 0 := by
  rw [lowSum, Finset.card_eq_zero.mp ((card_cells r).trans h), Finset.sum_empty]

/-- If all cells lie below the column, their sum is a product. -/
lemma lowSum_eq {r : Rect} {t : ℕ} (h : r.x + r.width + (r.y + r.height) ≤ t + 1) :
    r.lowSum t = (2 ^ r.width - 1) * (2 ^ r.height - 1) * 2 ^ (r.x + r.y) := by
  have hlow : ∀ c ∈ r.cells,
      (if c.1 + c.2 < t then 2 ^ (c.1 + c.2) else 0) = 2 ^ c.1 * 2 ^ c.2 := by
    intro c hc
    have hmem := mem_cells.mp hc
    rw [if_pos (by omega), pow_add]
  rw [lowSum, Finset.sum_congr rfl hlow, cells, Finset.sum_product, ← Finset.sum_mul_sum,
    sum_Ico_two_pow, sum_Ico_two_pow, pow_add]
  ring

open Finset.HasAntidiagonal (antidiagonal mem_antidiagonal) in
/-- A column of a grid has no more cells than there are rows down to it. -/
lemma lowSum_grid_le (w h t : ℕ) : (Rect.mk 0 0 w h).lowSum t ≤ columnsSum t := by
  have hdisjoint : Set.PairwiseDisjoint (Finset.range t : Set ℕ) fun j : ℕ => antidiagonal j := by
    intro i _ j _ hij
    refine Finset.disjoint_left.mpr fun c hi hj => hij ?_
    rw [← mem_antidiagonal.mp hi, mem_antidiagonal.mp hj]
  have hdiagonals : columnsSum t =
      ∑ c ∈ (Finset.range t).biUnion antidiagonal, 2 ^ (c.1 + c.2) := by
    rw [columnsSum, Finset.sum_biUnion hdisjoint]
    refine Finset.sum_congr rfl ?_
    intro j _
    rw [Finset.sum_congr rfl fun c hc => by rw [mem_antidiagonal.mp hc], Finset.sum_const,
      Finset.Nat.card_antidiagonal, smul_eq_mul]
  rw [lowSum, ← Finset.sum_filter, hdiagonals]
  refine Finset.sum_le_sum_of_subset ?_
  intro c hc
  exact Finset.mem_biUnion.mpr ⟨c.1 + c.2, Finset.mem_range.mpr (Finset.mem_filter.mp hc).2,
    mem_antidiagonal.mpr rfl⟩

/-- Every column between the corners of a rectangle has a cell in it. -/
lemma lowSum_ge {r : Rect} {k : ℕ} (hk : k + 1 ≤ r.width + r.height) (hw : 0 < r.width)
    (hh : 0 < r.height) : (2 ^ k - 1) * 2 ^ (r.x + r.y) ≤ r.lowSum (r.x + r.y + k) := by
  -- along the lowest row, and then up the last column
  let step (i : ℕ) : ℕ × ℕ :=
    if i < r.width then (r.x + i, r.y) else (r.x + (r.width - 1), r.y + (i - (r.width - 1)))
  have hstep : ∀ i, (step i).1 + (step i).2 = r.x + r.y + i := by
    intro i
    dsimp only [step]
    split_ifs <;> dsimp only <;> omega
  have hinj : Set.InjOn step (Finset.range k) := by
    intro i _ j _ hij
    have hi := hstep i
    rw [hij, hstep j] at hi
    omega
  calc (2 ^ k - 1) * 2 ^ (r.x + r.y) = ∑ i ∈ Finset.range k, 2 ^ ((step i).1 + (step i).2) := by
        rw [← sum_two_pow, Finset.sum_mul]
        exact Finset.sum_congr rfl fun i _ => by rw [hstep, pow_add _ _ i, Nat.mul_comm]
    _ = ∑ c ∈ (Finset.range k).image step, 2 ^ (c.1 + c.2) :=
        (Finset.sum_image (f := fun c : ℕ × ℕ => 2 ^ (c.1 + c.2)) hinj).symm
    _ ≤ ∑ c ∈ r.cells with c.1 + c.2 < r.x + r.y + k, 2 ^ (c.1 + c.2) := by
        refine Finset.sum_le_sum_of_subset ?_
        intro c hc
        obtain ⟨i, hi, rfl⟩ := Finset.mem_image.mp hc
        have hik := Finset.mem_range.mp hi
        have hsum := hstep i
        refine Finset.mem_filter.mpr ⟨mem_cells.mpr ?_, by omega⟩
        dsimp only [step]
        split_ifs <;> dsimp only <;> omega
    _ = r.lowSum (r.x + r.y + k) := Finset.sum_filter _ _

end Tiling.Rect

/-! ### Lost bits -/

/-- What a value loses that is given by `count` bits, those of `n`, if it
loses the `k` low ones. -/
def lostPart (count k n : ℕ) (value : ℤ) : ℤ := if count ≤ k then value else (n % 2 ^ k : ℕ)

lemma lostPart_nonneg {count k n : ℕ} {value : ℤ} (h : 0 ≤ value) :
    0 ≤ lostPart count k n value := by
  rw [lostPart]
  split_ifs
  · exact h
  · exact Int.natCast_nonneg _

/-- Nothing is lost above a cut, nor where there is nothing. -/
lemma lostPart_zero {count n : ℕ} {value : ℤ} (hcount : 0 < count) :
    lostPart count 0 n value = 0 := by
  rw [lostPart, if_neg (by omega), pow_zero, Nat.mod_one, Nat.cast_zero]

lemma lostPart_of_zero (count k : ℕ) : lostPart count k 0 0 = 0 := by
  rw [lostPart, Nat.zero_mod, Nat.cast_zero, ite_self]

/-- Some low bits are less than the power of two at the cut, and so no more
than the cells below it. -/
lemma lostPart_le_of_lt {r : Tiling.Rect} {count k n : ℕ} {value : ℤ} (hcount : k < count)
    (hk : k < r.width + r.height) (hw : 0 < r.width) (hh : 0 < r.height) :
    |lostPart count k n value| * 2 ^ (r.x + r.y) ≤ r.lowSum (r.x + r.y + k) := by
  have hlow := Tiling.Rect.lowSum_ge (r := r) hk hw hh
  have hmod : n % 2 ^ k ≤ 2 ^ k - 1 := Nat.le_sub_one_of_lt (Nat.mod_lt _ (by positivity))
  rw [lostPart, if_neg (by omega), Nat.abs_cast]
  calc ((n % 2 ^ k : ℕ) : ℤ) * 2 ^ (r.x + r.y)
      = ((n % 2 ^ k * 2 ^ (r.x + r.y) : ℕ) : ℤ) := by push_cast; rfl
    _ ≤ r.lowSum (r.x + r.y + k) := by
        exact_mod_cast (Nat.mul_le_mul_right _ hmod).trans hlow

/-- All bits together are no more than all cells. -/
lemma lostPart_le_of_all {count k n m : ℕ} {value : ℤ} (hvalue : |value| ≤ m)
    (hbits : count ≤ k ∨ (n : ℤ) = value) : |lostPart count k n value| ≤ m := by
  rw [lostPart]
  split_ifs with hall
  · exact hvalue
  · have hn := hbits.resolve_left hall
    rw [← hn, Nat.abs_cast] at hvalue
    rw [Nat.abs_cast]
    exact le_trans (by exact_mod_cast Nat.mod_le n (2 ^ k)) hvalue

/-- A product on a rectangle loses no more than the cells below a column. -/
lemma lostPart_le {r : Tiling.Rect} {count t n : ℕ} {value : ℤ}
    (hvalue : |value| ≤ ((2 ^ r.width - 1) * (2 ^ r.height - 1) : ℕ))
    (hcount : r.width + r.height ≤ count + 1)
    (hbits : (0 < r.width ∧ 0 < r.height ∧ count ≤ r.width + r.height) ∨ (n : ℤ) = value) :
    |lostPart count (t - (r.x + r.y)) n value * 2 ^ (r.x + r.y)| ≤ r.lowSum t := by
  have hplace : (0 : ℤ) ≤ 2 ^ (r.x + r.y) := by positivity
  rw [abs_mul, abs_of_nonneg hplace]
  by_cases hempty : r.width = 0 ∨ r.height = 0
  · have hzero : (2 ^ r.width - 1) * (2 ^ r.height - 1) = 0 := by
      rcases hempty with h | h <;> simp [h]
    rw [hzero, Nat.cast_zero, abs_nonpos_iff] at hvalue
    have hn : n = 0 := by
      rcases hbits with ⟨hw, hh, -⟩ | hn
      · omega
      · exact_mod_cast hn.trans hvalue
    rw [hn, hvalue, lostPart_of_zero, abs_zero, zero_mul]
    exact Int.natCast_nonneg _
  · obtain ⟨hw, hh⟩ : 0 < r.width ∧ 0 < r.height := by omega
    rcases Nat.lt_or_ge t (r.x + r.y) with habove | hbelow
    · rw [Nat.sub_eq_zero_of_le habove.le, lostPart_zero (by omega), abs_zero, zero_mul]
      exact Int.natCast_nonneg _
    · obtain ⟨k, rfl⟩ := Nat.exists_eq_add_of_le hbelow
      rw [Nat.add_sub_cancel_left]
      by_cases hsome : k < count ∧ k < r.width + r.height
      · exact lostPart_le_of_lt hsome.1 hsome.2 hw hh
      · have hall : count ≤ k ∨ (n : ℤ) = value := by
          rcases hbits with ⟨-, -, hle⟩ | hn
          · left
            omega
          · exact .inr hn
        rw [Tiling.Rect.lowSum_eq (by omega), Nat.cast_mul _ (2 ^ (r.x + r.y)), Nat.cast_pow,
          Nat.cast_ofNat]
        exact mul_le_mul_of_nonneg_right (lostPart_le_of_all hvalue hall) hplace

end Datapath
