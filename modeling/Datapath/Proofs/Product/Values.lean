/-
The values of partial products.

* `digitValue`: what the low digits of a number are worth, the top one of them
  negative or not; `sum_digits`: what is left without the lowest ones.
* `Fits`: the numbers with or without sign of some width; `digitValue_mul`
  reads a product of two of them off its digits.
* `OperandField.number`: the number in a field; `number_fits`, and
  `operand_value`: padding does not change it.
* `ProductTable.entry_eq`: an entry is the product with half a unit of the output
  added (`halfUnit`), without the digits below the unit.
* `table_modEq`, `block_modEq`, `cascade_value`: tables, blocks and cascades
  hold exact products, modulo their width.
-/
import Datapath.Product.Model
import Datapath.Proofs.Product.Cells
import Mathlib.Tactic.NormNum
import Mathlib.Tactic.Positivity

namespace Datapath

/-! ### Digits -/

/-- A binary digit, negative or not. -/
def digit (negative : Bool) (n i : ℕ) : ℤ := if negative then -wordBit n i else wordBit n i

lemma digit_not (negative : Bool) (n i : ℕ) : digit (!negative) n i = -digit negative n i := by
  cases negative <;> simp [digit]

/-- What the low `count` digits of a number are worth, if the top one of them
is negative or not. -/
def digitValue (negative : Bool) (count n : ℕ) : ℤ :=
  if negative then signedValue count n else (n % 2 ^ count : ℕ)

lemma digitValue_succ {count : ℕ} (h : count + 1 ≤ wordBits) (negative : Bool) (n : ℕ) :
    digitValue negative (count + 1) n =
      (n % 2 ^ count : ℕ) + digit negative n count * 2 ^ count := by
  cases negative with
  | true =>
    rw [digitValue, if_pos rfl, signedValue_eq_digits h (Nat.succ_pos _), Nat.add_sub_cancel,
      truncateTo_eq (by omega), digit, if_pos rfl, neg_mul, sub_eq_add_neg]
  | false =>
    rw [digitValue, if_neg Bool.false_ne_true, mod_two_pow_succ, digit,
      if_neg Bool.false_ne_true, wordBit_eq (by omega)]
    push_cast
    rfl

/-- Digits from some place on. -/
lemma sum_bits_from {n k count : ℕ} (h : k ≤ count) :
    (∑ i ∈ Finset.range count, if k ≤ i then n / 2 ^ i % 2 * 2 ^ i else 0) + n % 2 ^ k =
      n % 2 ^ count := by
  induction count, h using Nat.le_induction with
  | base =>
    rw [Finset.sum_eq_zero fun i hi => if_neg (Nat.not_le.mpr (Finset.mem_range.mp hi)),
      Nat.zero_add]
  | succ count hle ih =>
    rw [Finset.sum_range_succ, if_pos hle, mod_two_pow_succ, ← ih]
    ring

/-- The digits of a number at their places, without those below a cut. -/
lemma sum_digits {count : ℕ} (hcount : count ≤ wordBits) (top : Bool) (cut w n : ℕ) :
    ∑ i ∈ Finset.range count,
        (if cut ≤ w + i then digit (top && i + 1 == count) n i * 2 ^ (w + i) else 0) =
      (digitValue top count n - lostPart count (cut - w) n (digitValue top count n)) * 2 ^ w := by
  have hcut : ∀ i, cut ≤ w + i ↔ cut - w ≤ i := fun i => by omega
  simp only [hcut]
  generalize cut - w = k
  rcases Nat.lt_or_ge k count with hsome | hall
  · obtain ⟨m, rfl⟩ := Nat.exists_eq_add_of_lt (Nat.zero_lt_of_lt hsome)
    simp only [Nat.zero_add] at *
    have hkm : k ≤ m := Nat.le_of_lt_succ hsome
    have hlow : ∀ i ∈ Finset.range m,
        (if k ≤ i then digit (top && i + 1 == m + 1) n i * 2 ^ (w + i) else 0) =
          ((if k ≤ i then n / 2 ^ i % 2 * 2 ^ i else 0 : ℕ) : ℤ) * 2 ^ w := by
      intro i hi
      have him := Finset.mem_range.mp hi
      have hnot : (top && i + 1 == m + 1) = false := by
        rw [beq_false_of_ne (by omega), Bool.and_false]
      split_ifs
      · rw [hnot, digit, if_neg Bool.false_ne_true, wordBit_eq (by omega), pow_add]
        push_cast
        ring
      · simp
    rw [Finset.sum_range_succ, Finset.sum_congr rfl hlow, ← Finset.sum_mul, ← Nat.cast_sum,
      if_pos hkm, beq_self_eq_true, Bool.and_true, lostPart, if_neg (by omega),
      digitValue_succ hcount, ← sum_bits_from (n := n) hkm]
    push_cast
    ring
  · rw [lostPart, if_pos hall, sub_self, zero_mul]
    exact Finset.sum_eq_zero fun i hi => if_neg (by have := Finset.mem_range.mp hi; omega)

/-- The same digits with all signs changed. -/
lemma sum_digits_flip {count : ℕ} (hcount : count ≤ wordBits) (top : Bool) (cut w n : ℕ) :
    ∑ i ∈ Finset.range count,
        (if cut ≤ w + i then digit (!(top && i + 1 == count)) n i * 2 ^ (w + i) else 0) =
      -((digitValue top count n - lostPart count (cut - w) n (digitValue top count n)) *
        2 ^ w) := by
  rw [← sum_digits hcount, ← Finset.sum_neg_distrib]
  refine Finset.sum_congr rfl ?_
  intro i _
  rw [digit_not]
  split_ifs
  · rw [neg_mul]
  · rw [neg_zero]

/-! ### Numbers of some width -/

/-- A number with or without sign of `width` bits. -/
def Fits (signed : Bool) (width : ℕ) (n : ℤ) : Prop :=
  if signed then 0 < width ∧ -2 ^ (width - 1) ≤ n ∧ n < 2 ^ (width - 1) else 0 ≤ n ∧ n < 2 ^ width

lemma two_pow_pred {w : ℕ} (h : 0 < w) : (2 : ℤ) ^ w = 2 * 2 ^ (w - 1) := by
  rw [← pow_succ', Nat.sub_add_cancel h]

/-- A number with a sign is what its digits are worth. -/
lemma fits_signedValue {w : ℕ} (hpos : 0 < w) (hw : w ≤ wordBits) (n : ℕ) :
    Fits true w (signedValue w n) := by
  have hhalf := two_pow_pred hpos
  have hcast : ((2 ^ w : ℕ) : ℤ) = 2 ^ w := by push_cast; rfl
  have hlow := Int.le_bmod (x := n) (m := 2 ^ w) (by positivity)
  have hhigh := Int.bmod_lt (x := n) (m := 2 ^ w) (by positivity)
  rw [Fits, if_pos rfl, signedValue_eq hw]
  rw [hcast] at hlow hhigh
  generalize (2 : ℤ) ^ (w - 1) = m at *
  generalize (2 : ℤ) ^ w = M at *
  refine ⟨hpos, ?_, ?_⟩ <;> omega

namespace Fits

variable {sx sy : Bool} {w h : ℕ} {X Y : ℤ}

lemma of_lt {n : ℕ} (hn : n < 2 ^ w) : Fits false w n :=
  ⟨Int.natCast_nonneg n, by exact_mod_cast hn⟩

lemma nonneg (hX : Fits sx w X) (hs : sx = false) : 0 ≤ X := by
  subst hs
  exact hX.1

/-- Numbers of some width are below the power of two. -/
lemma abs_lt_pow (hX : Fits sx w X) : |X| ≤ (2 ^ w - 1 : ℕ) := by
  have hcast : ((2 ^ w - 1 : ℕ) : ℤ) = 2 ^ w - 1 := by
    rw [Nat.cast_sub Nat.one_le_two_pow]
    push_cast
    rfl
  rw [hcast, abs_le]
  cases sx with
  | false =>
    obtain ⟨hlow, hhigh⟩ := hX
    constructor <;> omega
  | true =>
    obtain ⟨hpos, hlow, hhigh⟩ := hX
    have hhalf := two_pow_pred hpos
    have hone : (1 : ℤ) ≤ 2 ^ (w - 1) := by exact_mod_cast Nat.one_le_two_pow
    constructor <;> omega

/-- The products of two numbers lie below the products of the greatest
numbers without sign. -/
lemma abs_mul_le (hX : Fits sx w X) (hY : Fits sy h Y) :
    |X * Y| ≤ ((2 ^ w - 1) * (2 ^ h - 1) : ℕ) := by
  rw [abs_mul, Nat.cast_mul]
  exact mul_le_mul hX.abs_lt_pow hY.abs_lt_pow (abs_nonneg _) (Int.natCast_nonneg _)

/-- With a sign a product takes one bit less. -/
lemma abs_mul_lt (hX : Fits true w X) (hY : Fits sy h Y) : |X * Y| * 2 < 2 ^ (w + h) := by
  obtain ⟨hpos, hlow, hhigh⟩ := hX
  have hhalf : |X| * 2 ≤ 2 ^ w := by
    have habs : |X| ≤ 2 ^ (w - 1) := abs_le.mpr ⟨hlow, hhigh.le⟩
    rw [two_pow_pred hpos]
    omega
  have hother : |Y| < 2 ^ h := by
    have habs := hY.abs_lt_pow
    rw [Nat.cast_sub Nat.one_le_two_pow] at habs
    push_cast at habs
    omega
  have hscale : (0 : ℤ) < 2 ^ w := by positivity
  calc |X * Y| * 2 = |X| * 2 * |Y| := by rw [abs_mul]; ring
    _ ≤ 2 ^ w * |Y| := mul_le_mul_of_nonneg_right hhalf (abs_nonneg _)
    _ < 2 ^ w * 2 ^ h := mul_lt_mul_of_pos_left hother hscale
    _ = 2 ^ (w + h) := (pow_add 2 w h).symm

end Fits

/-- Up to a word, a small number with a sign is read off its digits. -/
lemma signedValue_of_modEq {w n : ℕ} {X : ℤ} (hw : w ≤ wordBits) (hn : (n : ℤ) ≡ X [ZMOD 2 ^ w])
    (hX : |X| * 2 ≤ 2 ^ w) (hlt : X * 2 < 2 ^ w) : signedValue w n = X := by
  have hcast : ((2 ^ w : ℕ) : ℤ) = 2 ^ w := by push_cast; rfl
  have hlow := neg_abs_le X
  rw [signedValue_eq hw, ← Int.emod_bmod, hcast, hn, ← hcast, Int.emod_bmod,
    Int.bmod_eq_of_le_mul_two (by rw [hcast]; omega) (by rw [hcast]; omega)]

/-- A product is what the digits of a number are worth that agrees with it. The
top digit is negative if one of the factors has a sign. -/
lemma digitValue_mul {sx sy : Bool} {w h n : ℕ} {X Y : ℤ} (hX : Fits sx w X) (hY : Fits sy h Y)
    (hcount : w + h ≤ wordBits) (hn : (n : ℤ) ≡ X * Y [ZMOD 2 ^ (w + h)]) :
    digitValue (sx || sy) (w + h) n = X * Y := by
  have hsigned : |X * Y| * 2 < 2 ^ (w + h) → signedValue (w + h) n = X * Y := fun hsmall =>
    signedValue_of_modEq hcount hn hsmall.le
      (lt_of_le_of_lt (mul_le_mul_of_nonneg_right (le_abs_self _) (by norm_num)) hsmall)
  cases sx with
  | true =>
    rw [Bool.true_or, digitValue, if_pos rfl]
    exact hsigned (hX.abs_mul_lt hY)
  | false =>
    cases sy with
    | true =>
      rw [Bool.or_true, digitValue, if_pos rfl]
      refine hsigned ?_
      have hsmall := hY.abs_mul_lt hX
      rwa [mul_comm Y X, add_comm h w] at hsmall
    | false =>
      obtain ⟨hX0, hX1⟩ := hX
      obtain ⟨hY0, hY1⟩ := hY
      have hlt : X * Y < 2 ^ (w + h) := by
        rw [pow_add]
        exact mul_lt_mul'' hX1 hY1 hX0 hY0
      rw [digitValue, if_neg (by simp)]
      push_cast
      rw [hn, Int.emod_eq_of_lt (mul_nonneg hX0 hY0) hlt]

/-- The number in an operand of some width, with a sign or without. -/
def ProductTable.operand (signed : Bool) (width n : ℕ) : ℤ :=
  if signed then signedValue width n else n

/-- The operand of a table is a number of its width. -/
lemma fits_operand {signed : Bool} {w n : ℕ} (hpos : signed = true → 0 < w) (hw : w ≤ wordBits)
    (hn : n < 2 ^ w) : Fits signed w (ProductTable.operand signed w n) := by
  cases signed with
  | true =>
    rw [ProductTable.operand, if_pos rfl]
    exact fits_signedValue (hpos rfl) hw n
  | false => exact .of_lt hn

/-- The number in some bits of an operand, with a sign or without. -/
def chunkNumber (signed : Bool) (n lo width : ℕ) : ℤ :=
  ProductTable.operand signed width (chunk n lo width)

/-! ### Fields -/

namespace OperandField

variable {f : OperandField} {a : ℕ}

/-- The number in a field, with a sign if the extension repeats it. -/
def number (f : OperandField) (a : ℕ) : ℤ := chunkNumber f.signExtend a f.lo f.width

/-- The bits of a field are a chunk of the operand. -/
lemma bits_eq (ha : a < 2 ^ wordBits) (lo width : ℕ) :
    (if lo < wordBits then truncateTo width (a >>> lo) else 0) = chunk a lo width := by
  have hshift : a >>> lo < 2 ^ wordBits := by
    rw [Nat.shiftRight_eq_div_pow]
    exact (Nat.div_le_self _ _).trans_lt ha
  split_ifs with hlo
  · rcases le_total width wordBits with hw | hw
    · rw [truncateTo_eq hw, chunk, Nat.shiftRight_eq_div_pow]
    · have hpow : 2 ^ wordBits ≤ 2 ^ width := Nat.pow_le_pow_right (by norm_num) hw
      rw [truncateTo, Nat.min_eq_right hw, Nat.one_shiftLeft, Nat.mod_eq_of_lt hshift, chunk,
        ← Nat.shiftRight_eq_div_pow, Nat.mod_eq_of_lt (hshift.trans_le hpow)]
  · have hlt : a < 2 ^ lo := ha.trans_le (Nat.pow_le_pow_right (by norm_num) (by omega))
    rw [chunk, Nat.div_eq_of_lt hlt, Nat.zero_mod]

lemma plain_value (ha : a < 2 ^ wordBits) (lo width : ℕ) :
    (plain lo width).value a = chunk a lo width := by
  have hbits := bits_eq ha lo width
  dsimp only [value, plain]
  rw [hbits, if_neg (by simp)]

/-- An operand is a field of itself. -/
lemma plain_value_of_lt {width : ℕ} (hword : width ≤ wordBits) (ha : a < 2 ^ width) :
    (plain 0 width).value a = a := by
  rw [plain_value (lt_word hword ha), chunk_zero, Nat.mod_eq_of_lt ha]

lemma number_fits (hpos : f.signExtend = true → 0 < f.width) (hw : f.width ≤ wordBits) :
    Fits f.signExtend f.width (f.number a) :=
  fits_operand hpos hw (chunk_lt _ _ _)

/-- Padding a field does not change the number in it. -/
lemma operand_value (ha : a < 2 ^ wordBits) (hpos : 0 < f.width) (hpadded : f.width ≤ f.padded)
    (hword : f.padded ≤ wordBits) :
    f.value a < 2 ^ f.padded ∧
      ProductTable.operand f.signExtend f.padded (f.value a) = f.number a := by
  have hbits := bits_eq ha f.lo f.width
  have hlt := chunk_lt a f.lo f.width
  have hmono : 2 ^ f.width ≤ 2 ^ f.padded := Nat.pow_le_pow_right (by norm_num) hpadded
  simp only [value, hbits, number, chunkNumber, ProductTable.operand]
  cases hs : f.signExtend with
  | false => simpa using hlt.trans_le hmono
  | true =>
    have hfits := fits_signedValue hpos (hpadded.trans hword) (chunk a f.lo f.width)
    have hnumber := signedValue_of_lt (hpadded.trans hword) hlt
    obtain ⟨-, hlow, hhigh⟩ := hfits
    have hcast : ((2 ^ f.padded : ℕ) : ℤ) = 2 ^ f.padded := by push_cast; rfl
    have hcast' : ((2 ^ f.width : ℕ) : ℤ) = 2 * 2 ^ (f.width - 1) := by
      push_cast
      exact two_pow_pred hpos
    have hpadding : lowMask f.padded - lowMask f.width = 2 ^ f.padded - 2 ^ f.width := by
      have hone : 1 ≤ 2 ^ f.width := Nat.one_le_two_pow
      rw [lowMask_eq hword, lowMask_eq (hpadded.trans hword)]
      omega
    simp only [hpadding, true_and, if_true]
    have habs : |signedValue f.width (chunk a f.lo f.width)| ≤ 2 ^ (f.width - 1) :=
      abs_le.mpr ⟨hlow, hhigh.le⟩
    refine ⟨?_, signedValue_of_modEq hword ?_ (by omega) (by omega)⟩
    · split_ifs <;> omega
    · rw [hnumber]
      split_ifs with htop
      · refine (Int.modEq_iff_dvd.mpr ⟨1, ?_⟩).symm
        rw [← hcast, Nat.cast_add, Nat.cast_sub hmono]
        ring
      · exact Int.ModEq.refl _

end OperandField

/-! ### Tables -/

/-- Half a unit of `2 ^ d`, or nothing if there are no digits below the unit. -/
def halfUnit (d : ℕ) : ℤ := if 0 < d then 2 ^ (d - 1) else 0

lemma halfUnit_zero : halfUnit 0 = 0 := rfl

lemma two_mul_halfUnit {d : ℕ} (hd : 0 < d) : 2 * halfUnit d = 2 ^ d := by
  rw [halfUnit, if_pos hd, ← two_pow_pred hd]

lemma halfUnit_nonneg (d : ℕ) : 0 ≤ halfUnit d := by
  rw [halfUnit]
  split_ifs <;> positivity

lemma halfUnit_lt (d : ℕ) : halfUnit d < 2 ^ d := by
  have hpos : (0 : ℤ) < 2 ^ d := by positivity
  rcases Nat.eq_zero_or_pos d with rfl | hd
  · exact hpos
  · have hhalf := two_mul_halfUnit hd
    omega

namespace ProductTable

variable {t : ProductTable} {x y : ℕ}

/-- Small fields are read as operands. -/
lemma interpret_eq {width n : ℕ} (signed : Bool) (hword : width < wordBits) (hn : n < 2 ^ width) :
    interpret signed width n = operand signed width n := by
  rw [interpret, operand, signedValue_of_lt hword.le hn, Nat.mod_eq_of_lt hword,
    Nat.mod_eq_of_lt (by omega), Nat.one_shiftLeft]
  cases signed with
  | false => rfl
  | true =>
    rcases Nat.eq_zero_or_pos width with rfl | hpos
    · obtain rfl : n = 0 := by omega
      simp [bitAt]
    · simp [hpos]

/-- The input width of a small table is that of both fields. -/
lemma inputWidth_eq (hsmall : t.dx + t.dy ≤ maxInput) : t.inputWidth = t.dx + t.dy :=
  wrap32_of_lt (hsmall.trans_lt (by decide))

/-- The product of an input is that of its two fields. -/
lemma product_eq_operands (hsmall : t.dx + t.dy ≤ maxInput) (input : ℕ) :
    t.product input = operand t.signedX t.dx (input % 2 ^ t.dx) *
      operand t.signedY t.dy (input / 2 ^ t.dx % 2 ^ t.dy) := by
  have hword : t.dx + t.dy < wordBits := hsmall.trans_lt (by decide)
  have hlow : input % 2 ^ (t.dx + t.dy) % 2 ^ t.dx = input % 2 ^ t.dx :=
    Nat.mod_mod_of_dvd _ (Nat.pow_dvd_pow 2 (Nat.le_add_right _ _))
  have hhigh : input % 2 ^ (t.dx + t.dy) / 2 ^ t.dx = input / 2 ^ t.dx % 2 ^ t.dy := by
    rw [pow_add, Nat.mod_mul_right_div_self]
  simp only [product, inputWidth_eq hsmall]
  rw [truncateTo_eq hword.le, truncateTo_eq (by omega),
    Nat.mod_eq_of_lt (by omega : t.dx < wordBits), Nat.shiftRight_eq_div_pow, hlow, hhigh,
    interpret_eq _ (by omega) (Nat.mod_lt _ (by positivity)),
    interpret_eq _ (by omega) (Nat.mod_lt _ (by positivity))]

/-- The product that the entry of two fields stands for. -/
lemma product_eq (hsmall : t.dx + t.dy ≤ maxInput) (hx : x < 2 ^ t.dx) (hy : y < 2 ^ t.dy) :
    t.product (y * 2 ^ t.dx + x) = operand t.signedX t.dx x * operand t.signedY t.dy y := by
  rw [product_eq_operands hsmall, Nat.mul_comm y, Nat.mul_add_mod, Nat.mod_eq_of_lt hx,
    Nat.mul_add_div (by positivity), Nat.div_eq_of_lt hx, Nat.add_zero, Nat.mod_eq_of_lt hy]

/-- In a word, the second field lies above the first. -/
lemma pack_eq (hx : x < 2 ^ t.dx) (hy : y < 2 ^ t.dy) (hword : t.dx + t.dy ≤ wordBits) :
    (wrap (y <<< t.dx) ||| x) = y * 2 ^ t.dx + x := by
  have hlt : y * 2 ^ t.dx < 2 ^ wordBits :=
    calc y * 2 ^ t.dx < 2 ^ t.dy * 2 ^ t.dx := Nat.mul_lt_mul_of_pos_right hy (by positivity)
      _ = 2 ^ (t.dx + t.dy) := by rw [← pow_add, Nat.add_comm]
      _ ≤ 2 ^ wordBits := Nat.pow_le_pow_right (by norm_num) hword
  rw [Nat.shiftLeft_eq, wrap_of_lt hlt, ← Nat.shiftLeft_eq, ← Nat.shiftLeft_add_eq_or_of_lt hx]

/-- A table has the parameters that were asked for. -/
lemma make_eq_ok {dx dy wOut : ℕ} {signedX signedY : Bool}
    (h : make dx dy wOut signedX signedY = .ok t) :
    t = ⟨dx, dy, wOut, signedX, signedY⟩ ∧ 0 < dx ∧ 0 < dy ∧ wOut ≤ wrap32 (dx + dy) ∧
      wrap32 (dx + dy) ≤ maxInput := by
  simp only [make] at h
  split_ifs at h with hempty hout hin
  cases h
  exact ⟨rfl, by omega, by omega, by omega, by omega⟩

/-- A table is small if its input width, or the output width that was asked for,
fits in 32 bits. -/
lemma small_of_make {dx dy wOut : ℕ} {signedX signedY : Bool}
    (hwidth : dx + dy < 2 ^ 32 ∨ dx + dy ≤ wOut) (h : make dx dy wOut signedX signedY = .ok t) :
    wOut ≤ dx + dy ∧ dx + dy ≤ maxInput := by
  obtain ⟨-, -, -, hout, hsmall⟩ := make_eq_ok h
  rcases hwidth with hwidth | hwhole
  · rw [wrap32_of_lt hwidth] at hout hsmall
    exact ⟨hout, hsmall⟩
  · exact ⟨hout.trans (Nat.mod_le _ _), (hwhole.trans hout).trans hsmall⟩

/-- An entry is the exact product with half a unit of the output added, without the
digits below the unit. The table adds it to the product in two's complement, where
a product just below zero carries out of the top, and this makes no difference. -/
lemma entry_eq (hout : t.wOut ≤ t.dx + t.dy) (hsmall : t.dx + t.dy ≤ maxInput) (input : ℕ) :
    (t.entry input : ℤ) =
      (t.product input + halfUnit (t.dx + t.dy - t.wOut)) / 2 ^ (t.dx + t.dy - t.wOut) %
        2 ^ t.wOut := by
  obtain ⟨d, hd⟩ := Nat.exists_eq_add_of_le' hout
  have hpos : (0 : ℤ) < 2 ^ (d + t.wOut) := by positivity
  simp only [entry, inputWidth_eq hsmall, hd, Nat.add_sub_cancel, Nat.one_shiftLeft]
  push_cast
  set n := (t.product input % 2 ^ (d + t.wOut)).toNat with hn
  have hmod : (n : ℤ) ≡ t.product input [ZMOD 2 ^ (d + t.wOut)] := by
    rw [hn, Int.toNat_of_nonneg (Int.emod_nonneg _ hpos.ne')]
    exact Int.mod_modEq _ _
  have hrounded : ((if 0 < d then (n + 2 ^ (d - 1)) >>> d else n : ℕ) : ℤ) =
      (n + halfUnit d) / 2 ^ d := by
    rw [halfUnit]
    split_ifs with hdrop
    · rw [Nat.shiftRight_eq_div_pow]
      push_cast
      rfl
    · rw [Nat.eq_zero_of_not_pos hdrop, pow_zero, Int.ediv_one, add_zero]
  rw [← div_mod_of_modEq (hmod.add_right (halfUnit d)), ← hrounded]
  push_cast
  rfl

/-- A table that drops nothing holds the product modulo its width. -/
lemma entry_modEq (hwOut : t.wOut = t.dx + t.dy) (hsmall : t.dx + t.dy ≤ maxInput) (input : ℕ) :
    (t.entry input : ℤ) ≡ t.product input [ZMOD 2 ^ (t.dx + t.dy)] := by
  rw [entry_eq hwOut.le hsmall, hwOut, Nat.sub_self, halfUnit_zero, pow_zero, Int.ediv_one,
    add_zero]
  exact Int.mod_modEq _ _

lemma entry_lt (t : ProductTable) (input : ℕ) : t.entry input < 2 ^ t.wOut := by
  simp only [entry, Nat.one_shiftLeft]
  exact Nat.mod_lt _ (by positivity)

end ProductTable

namespace PartialProduct

variable {a b : ℕ}

/-- A table of two fields holds the product of the numbers in them. -/
lemma table_modEq {t : ProductTable} {fx fy : OperandField} (hwOut : t.wOut = t.dx + t.dy)
    (hsmall : t.dx + t.dy ≤ ProductTable.maxInput) (hx : fx.value a < 2 ^ t.dx)
    (hy : fy.value b < 2 ^ t.dy) :
    ((table t fx fy).value a b : ℤ) ≡
      ProductTable.operand t.signedX t.dx (fx.value a) *
        ProductTable.operand t.signedY t.dy (fy.value b) [ZMOD 2 ^ (t.dx + t.dy)] := by
  rw [value, ProductTable.pack_eq hx hy (hsmall.trans (by decide)),
    ← ProductTable.product_eq hsmall hx hy]
  exact ProductTable.entry_modEq hwOut hsmall _

/-- A block without sign holds the product of its fields. -/
lemma block_value (ha : a < 2 ^ wordBits) (hb : b < 2 ^ wordBits) {lx ly w h : ℕ}
    (hword : w + h ≤ wordBits) :
    (block (.plain lx w) (.plain ly h) false).value a b = chunk a lx w * chunk b ly h := by
  have hlt : chunk a lx w * chunk b ly h < 2 ^ wordBits :=
    calc chunk a lx w * chunk b ly h < 2 ^ w * 2 ^ h :=
          Nat.mul_lt_mul'' (chunk_lt a lx w) (chunk_lt b ly h)
      _ = 2 ^ (w + h) := (pow_add 2 w h).symm
      _ ≤ 2 ^ wordBits := Nat.pow_le_pow_right (by norm_num) hword
  rw [value, if_neg (by simp), OperandField.plain_value ha, OperandField.plain_value hb,
    wrap_of_lt hlt]

/-- A block holds the product of its fields modulo its width. -/
lemma block_modEq (ha : a < 2 ^ wordBits) (hb : b < 2 ^ wordBits) (signed : Bool) (lx ly : ℕ)
    {w h : ℕ} (hword : w + h ≤ wordBits) :
    ((block (.plain lx w) (.plain ly h) signed).value a b : ℤ) ≡
      ProductTable.operand signed w (chunk a lx w) * ProductTable.operand signed h (chunk b ly h)
      [ZMOD 2 ^ (w + h)] := by
  cases signed with
  | false =>
    rw [block_value ha hb hword, Nat.cast_mul]
    rfl
  | true =>
    rw [value, if_pos rfl, OperandField.plain_value ha, OperandField.plain_value hb]
    rw [OperandField.plain, OperandField.plain, truncateInt_wrapSigned, truncateInt_eq hword,
      ProductTable.operand, ProductTable.operand, if_pos rfl, if_pos rfl]
    exact Int.mod_modEq _ _

/-- The exact sum of the products of a cascade. -/
def cascadeSum (a b : ℕ) (terms : List CascadeTerm) : ℕ :=
  (terms.map fun t => t.x.value a * t.y.value b * 2 ^ t.shift).sum

/-- A cascade holds the sum of its products modulo a word. -/
lemma cascade_modEq {terms : List CascadeTerm}
    (hshift : ∀ t ∈ terms, t.shift < wordBits ∨ t.x.value a * t.y.value b = 0) :
    (cascade terms).value a b ≡ cascadeSum a b terms [MOD 2 ^ wordBits] := by
  have hterm : ∀ t ∈ terms, t.value a b ≡ t.x.value a * t.y.value b * 2 ^ t.shift
      [MOD 2 ^ wordBits] := by
    intro t ht
    rw [CascadeTerm.value, wrap, Nat.one_shiftLeft]
    refine (Nat.mod_modEq _ _).trans ?_
    rcases hshift t ht with hlt | hzero
    · rw [Nat.mod_eq_of_lt hlt, Nat.shiftLeft_eq]
    · rw [hzero, Nat.zero_shiftLeft, Nat.zero_mul]
  have hfold : ∀ sum, terms.foldl (fun sum t => wrap (sum + t.value a b)) sum ≡
      sum + cascadeSum a b terms [MOD 2 ^ wordBits] := by
    induction terms with
    | nil => exact fun sum => Nat.ModEq.refl sum
    | cons t terms ih =>
      intro sum
      obtain ⟨ht, hterms⟩ := List.forall_mem_cons.mp hterm
      have hsum : wrap (sum + t.value a b) ≡
          sum + t.x.value a * t.y.value b * 2 ^ t.shift [MOD 2 ^ wordBits] := by
        rw [wrap, Nat.one_shiftLeft]
        exact (Nat.mod_modEq _ _).trans (ht.add_left _)
      rw [List.foldl_cons, cascadeSum, List.map_cons, List.sum_cons, ← Nat.add_assoc]
      exact (ih (fun t ht => hshift t (List.mem_cons_of_mem _ ht)) hterms _).trans
        (hsum.add_right _)
  have hall := hfold 0
  rwa [Nat.zero_add] at hall

/-- If the sum fits in a word, a cascade holds it. -/
lemma cascade_value {terms : List CascadeTerm}
    (hshift : ∀ t ∈ terms, t.shift < wordBits ∨ t.x.value a * t.y.value b = 0)
    (hsum : cascadeSum a b terms < 2 ^ wordBits) :
    (cascade terms).value a b = cascadeSum a b terms := by
  have hwrap : ∀ n, wrap n < 2 ^ wordBits := by
    intro n
    rw [wrap, Nat.one_shiftLeft]
    exact Nat.mod_lt _ (by positivity)
  have hlt : ∀ sum < 2 ^ wordBits,
      terms.foldl (fun sum t => wrap (sum + t.value a b)) sum < 2 ^ wordBits := by
    clear hshift hsum
    induction terms with
    | nil => exact fun sum hlt => hlt
    | cons t terms ih => exact fun sum _ => ih _ (hwrap _)
  exact (cascade_modEq hshift).eq_of_lt_of_lt (hlt 0 (by positivity)) hsum

end PartialProduct

end Datapath
