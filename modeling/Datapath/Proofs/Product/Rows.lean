/-
Products in rows and in one piece.

* `Site.Operands`: numbers for the operands of a product, and `Site.exact`:
  the exact product of them.
* `addRows_adds`: the rows of bits add up to the product. With signs, a row is
  what the digits of the first operand are worth, and the digits of the second
  one put the rows together.
* `addTable_adds`, `addBlock_adds`: a table or a block of the whole product
  adds it at once.
-/
import Datapath.Proofs.Product.Adds

namespace Datapath

namespace Site

variable {s : Site} {c c' : Contribution} {a b : ℕ}

/-! ### Operands -/

/-- Numbers that fit in the operands of a product. -/
structure Operands (s : Site) (a b : ℕ) : Prop where
  posX : 0 < s.wx
  posY : 0 < s.wy
  word : s.wx + s.wy ≤ wordBits
  ltX : a < 2 ^ s.wx
  ltY : b < 2 ^ s.wy

/-- The operands of a product are signals of its widths. -/
structure Reads (s : Site) (b : Builder) : Prop where
  x : b.HasWidth s.x s.wx
  y : b.HasWidth s.y s.wy

lemma Reads.mono {b b' : Builder} (h : s.Reads b) (hle : b ≤ b') : s.Reads b' :=
  ⟨h.x.mono hle, h.y.mono hle⟩

/-- The exact product of two operands. -/
def exact (s : Site) (a b : ℕ) : ℤ :=
  ProductTable.operand s.signed s.wx a * ProductTable.operand s.signed s.wy b

/-- The rectangle of all cells of a product. -/
def grid (s : Site) : Tiling.Rect := ⟨0, 0, s.wx, s.wy⟩

namespace Operands

lemma fitsX (h : s.Operands a b) : Fits s.signed s.wx (ProductTable.operand s.signed s.wx a) :=
  fits_operand (fun _ => h.posX) (by have := h.word; omega) h.ltX

lemma fitsY (h : s.Operands a b) : Fits s.signed s.wy (ProductTable.operand s.signed s.wy b) :=
  fits_operand (fun _ => h.posY) (by have := h.word; omega) h.ltY

/-- Operands are words. -/
lemma ltWord (h : s.Operands a b) : a < 2 ^ wordBits ∧ b < 2 ^ wordBits := by
  have hword := h.word
  exact ⟨lt_word (by omega) h.ltX, lt_word (by omega) h.ltY⟩

/-- Without signs a product has none. -/
lemma exact_nonneg (h : s.Operands a b) (hs : s.signed = false) : 0 ≤ s.exact a b :=
  mul_nonneg (h.fitsX.nonneg hs) (h.fitsY.nonneg hs)

end Operands

/-- The digits of an operand make it up. -/
lemma digitValue_of_lt {top : Bool} {w n : ℕ} (hn : n < 2 ^ w) :
    digitValue top w n = ProductTable.operand top w n := by
  rw [digitValue, ProductTable.operand, Nat.mod_eq_of_lt hn]

/-! ### Rows -/

/-- A row adds the first operand, if the digit of the second one is set. -/
lemma addRow_adds {j : ℕ} (hsound : c.Sound) (ho : s.Operands a b) (hj : j < s.wy)
    (h : s.addRow j c = .ok () c') :
    s.Adds c c' a b
      (ProductTable.operand s.signed s.wx a * digit (s.signed && j + 1 == s.wy) b j * 2 ^ j)
      ((Tiling.Rect.mk 0 j s.wx 1).lowSum (s.cut c.heap)) := by
  obtain ⟨row, c₁, hdeclare, h⟩ := bind_eq_ok.mp h
  obtain ⟨_, c₂, hrecord, hbits⟩ := bind_eq_ok.mp h
  obtain ⟨hemit, -, hp⟩ := Adds.emit (s := s) (x := a) (y := b) hsound hdeclare hrecord
    fun _ => .of_declare
  have hbit := wordBit_le_one b j
  have hX := ho.fitsX
  -- the row is the first operand or zero
  have hvalue : digitValue s.signed s.wx ((PartialProduct.row j).value a b) =
      ProductTable.operand s.signed s.wx a * wordBit b j := by
    rw [PartialProduct.value]
    by_cases hset : wordBit b j = 1
    · rw [if_pos hset, hset, Nat.cast_one, mul_one, digitValue_of_lt ho.ltX]
    · rw [if_neg hset, show wordBit b j = 0 by omega, Nat.cast_zero, mul_zero,
        digitValue_of_lt (by positivity)]
      cases s.signed <;> simp [ProductTable.operand]
  have hnegative : ∀ i, (s.signed && ((i + 1 == s.wx) != (j + 1 == s.wy))) =
      ((s.signed && j + 1 == s.wy) != (s.signed && i + 1 == s.wx)) := by
    intro i
    cases s.signed with
    | false => rfl
    | true => exact Bool.xor_comm _ _
  have hput := Adds.put (r := ⟨0, j, s.wx, 1⟩) (x := a) (y := b) hemit.sound hbits hp
    (Nat.zero_add j).symm (by omega) hnegative
    (fun hs => by rw [hs, Bool.false_and]; exact ⟨rfl, rfl⟩)
    ((Nat.le_add_right _ _).trans ho.word) hvalue ?_
    le_rfl (.inl ⟨ho.posX, Nat.one_pos, Nat.le_add_right _ 1⟩) ?_
  · convert hemit.trans hput using 1
    · rw [zero_add, digit]
      split_ifs <;> ring
    · rw [Nat.zero_add, cut_of_sameShape hemit.shape]
  · rw [abs_mul, Nat.abs_cast, pow_one, Nat.mul_one]
    have hle : (wordBit b j : ℤ) ≤ 1 := by exact_mod_cast hbit
    exact (mul_le_of_le_one_right (abs_nonneg _) hle).trans hX.abs_lt_pow
  · exact fun hs => mul_nonneg (hX.nonneg hs) (Int.natCast_nonneg _)

lemma addRowsFrom_adds {j count : ℕ} (hsound : c.Sound) (ho : s.Operands a b)
    (hj : j + count ≤ s.wy) (h : s.addRowsFrom j count c = .ok () c') :
    s.Adds c c' a b
      (ProductTable.operand s.signed s.wx a * ∑ i ∈ Finset.range count,
        digit (s.signed && j + i + 1 == s.wy) b (j + i) * 2 ^ (j + i))
      ((Tiling.Rect.mk 0 j s.wx count).lowSum (s.cut c.heap)) := by
  induction count generalizing c j with
  | zero =>
    obtain ⟨-, rfl⟩ := pure_eq_ok.mp h
    rw [Finset.sum_range_zero, mul_zero, Tiling.Rect.lowSum_of_area (Nat.mul_zero _)]
    exact .none hsound
  | succ count ih =>
    obtain ⟨_, c₁, hrow, hrest⟩ := bind_eq_ok.mp h
    have hfirst := addRow_adds hsound ho (by omega) hrow
    convert hfirst.trans (ih hfirst.sound (by omega) hrest) using 1
    · rw [Finset.sum_range_succ', add_comm, mul_add, Nat.add_zero, mul_assoc]
      congr 2
      exact Finset.sum_congr rfl fun i _ => by rw [show j + (i + 1) = j + 1 + i by omega]
    · rw [cut_of_sameShape hfirst.shape, Nat.add_comm count 1, Tiling.Rect.lowSum_add_height]

/-- The rows together add the product. -/
theorem addRows_adds (hsound : c.Sound) (ho : s.Operands a b) (h : s.addRows c = .ok () c') :
    s.Adds c c' a b (s.exact a b) (s.grid.lowSum (s.cut c.heap)) := by
  obtain ⟨_, c₁, hbuild, hrows⟩ := bind_eq_ok.mp h
  have hstart := Adds.build (s := s) (x := a) (y := b) hsound
    (s.readOperands_rising.bind fun _ => (Build.advance_rising _ _).bind fun _ => .pure _) hbuild
  convert hstart.trans (addRowsFrom_adds hstart.sound ho (Nat.zero_add _).le hrows) using 1
  · have hwy : s.wy ≤ wordBits := (Nat.le_add_left _ _).trans ho.word
    have hdigits := sum_digits hwy s.signed 0 0 b
    rw [lostPart, Nat.sub_zero, if_neg (Nat.not_le.mpr ho.posY), pow_zero, Nat.mod_one,
      Nat.cast_zero, sub_zero, pow_zero, mul_one, digitValue_of_lt ho.ltY] at hdigits
    rw [zero_add, exact, ← hdigits]
    simp only [Nat.zero_le, if_true, Nat.zero_add]
  · rw [cut_of_sameShape hstart.shape, Nat.zero_add, grid]

/-! ### Products in one piece -/

/-- A signal that holds the product modulo its width adds it. -/
lemma addOperand_adds {id : SignalId} {p : PartialProduct} (hsound : c.Sound)
    (ho : s.Operands a b) (hid : c.builder.HasWidth id (s.wx + s.wy))
    (hp : c.parts[id]? = some p)
    (hvalue : (p.value a b : ℤ) ≡ s.exact a b [ZMOD 2 ^ (s.wx + s.wy)])
    (h : s.addOperand id 0 s.signed c = .ok () c') :
    s.Adds c c' a b (s.exact a b) (s.grid.lowSum (s.cut c.heap)) := by
  have hdigits := digitValue_mul ho.fitsX ho.fitsY ho.word hvalue
  rw [Bool.or_self] at hdigits
  have hput := Adds.put_top (r := s.grid) (x := a) (y := b) hsound
    (addBits_of_addOperand hid (by exact_mod_cast h)) hp rfl (Nat.zero_add _).le
    (fun hs => hs) ho.word hdigits (ho.fitsX.abs_mul_le ho.fitsY) (Nat.le_succ _)
    (.inl ⟨ho.posX, ho.posY, le_rfl⟩) ho.exact_nonneg
  rwa [show s.grid.x + s.grid.y = 0 from rfl, pow_zero, mul_one] at hput

/-- One table adds the product. -/
theorem addTable_adds (hsound : c.Sound) (ho : s.Operands a b) (h : s.addTable c = .ok () c') :
    s.Adds c c' a b (s.exact a b) (s.grid.lowSum (s.cut c.heap)) := by
  obtain ⟨t, c₁, hmake, hrest⟩ := bind_eq_ok.mp h
  obtain ⟨out, c₂, hplace, hrest⟩ := bind_eq_ok.mp hrest
  obtain ⟨_, c₃, hrecord, hadd⟩ := bind_eq_ok.mp hrest
  obtain ⟨b₁, htable, rfl⟩ := Contributing.build_eq_ok.mp hmake
  obtain ⟨ht, rfl⟩ := ofExcept_eq_ok.mp htable
  have hsmall := (ProductTable.small_of_make (.inr le_rfl) ht).2
  obtain ⟨rfl, -⟩ := ProductTable.make_eq_ok ht
  obtain ⟨hemit, hwidth, hp⟩ := Adds.emit (s := s) (x := a) (y := b) hsound hplace hrecord
    fun b' hout => by
      obtain ⟨_, b₁, hmove, hout⟩ := bind_eq_ok.mp hout
      exact (placeTable_emits hout).after (Build.moveTo_rising _ hmove)
  have hx := OperandField.plain_value_of_lt ((Nat.le_add_right _ _).trans ho.word) ho.ltX
  have hy := OperandField.plain_value_of_lt ((Nat.le_add_left _ _).trans ho.word) ho.ltY
  have hvalue := PartialProduct.table_modEq (t := ⟨s.wx, s.wy, s.wx + s.wy, s.signed, s.signed⟩)
    rfl hsmall (hx.trans_lt ho.ltX) (hy.trans_lt ho.ltY)
  rw [hx, hy] at hvalue
  have hboth := hemit.trans (addOperand_adds hemit.sound ho hwidth hp hvalue hadd)
  rwa [zero_add, Nat.zero_add, cut_of_sameShape hemit.shape] at hboth

/-- One block adds the product. -/
theorem addBlock_adds (hsound : c.Sound) (ho : s.Operands a b) (hr : s.Reads c.builder)
    (h : s.addBlock c = .ok () c') :
    s.Adds c c' a b (s.exact a b) (s.grid.lowSum (s.cut c.heap)) := by
  obtain ⟨out, c₁, hplace, hrest⟩ := bind_eq_ok.mp h
  obtain ⟨_, c₂, hrecord, hadd⟩ := bind_eq_ok.mp hrest
  obtain ⟨hemit, hwidth, hp⟩ := Adds.emit (s := s) (x := a) (y := b) hsound hplace hrecord
    fun b' hout => by
      obtain ⟨_, b₁, hmove, hout⟩ := bind_eq_ok.mp hout
      have hr' := hr.mono (Build.moveTo_rising _ hmove)
      exact (placeBlock_emits hr'.x hr'.y hout).after (Build.moveTo_rising _ hmove)
  have hvalue := PartialProduct.block_modEq ho.ltWord.1 ho.ltWord.2 s.signed 0 0 ho.word
  rw [chunk_zero, chunk_zero, Nat.mod_eq_of_lt ho.ltX, Nat.mod_eq_of_lt ho.ltY] at hvalue
  have hboth := hemit.trans (addOperand_adds hemit.sound ho hwidth hp hvalue hadd)
  rwa [zero_add, Nat.zero_add, cut_of_sameShape hemit.shape] at hboth

end Site

end Datapath
