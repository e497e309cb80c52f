/-
Words as numbers.

The definitions of `Bits` are written with shifts and with the width of a word
as a bound. Up to that width they are the arithmetic of powers of two:

* `truncateTo_eq`, `wrap_of_lt`, `lowMask_eq`: remainders; `wrap32_of_lt`,
  `wrap64_of_lt` and `wrapSigned64_of_mem` for the shorter words;
* `ceilDiv_of_le`, `ceilDiv_add_left`: division rounded up, one divisor at a time;
* `bitAt_eq`, `wordBit_eq`: binary digits, and `sum_bits` puts a number
  together again from its digits;
* `truncateInt_eq`, `signedValue_eq`: two's complement, that is, the
  remainder around zero; `signedValue_eq_digits`: its top digit counts
  negatively.
* `div_mod_of_modEq`: numbers that agree modulo a width have the same high digits
  in it. The number that is cut may be one with a sign.
-/
import Datapath.Bits
import Mathlib.Algebra.BigOperators.Intervals
import Mathlib.Algebra.BigOperators.Ring.Finset
import Mathlib.Data.Int.ModEq
import Mathlib.Data.Nat.ModEq
import Mathlib.Tactic.Linarith
import Mathlib.Tactic.Ring

namespace Datapath

variable {width n i : ℕ}

/-! ### Remainders -/

/-- Up to a word, truncation is a remainder. -/
lemma truncateTo_eq (h : width ≤ wordBits) (n : ℕ) : truncateTo width n = n % 2 ^ width := by
  rw [truncateTo, Nat.min_eq_left h, Nat.one_shiftLeft]

/-- What is cut to a width has it. -/
lemma truncateTo_lt_two_pow (width n : ℕ) : truncateTo width n < 2 ^ width := by
  rw [← Nat.one_shiftLeft]
  exact truncateTo_lt width n

/-- Narrower numbers fit in a word, too. -/
lemma lt_word (hw : width ≤ wordBits) (hn : n < 2 ^ width) : n < 2 ^ wordBits :=
  hn.trans_le (Nat.pow_le_pow_right (by norm_num) hw)

/-- Numbers of one word are not cut. -/
lemma wrap_of_lt (h : n < 2 ^ wordBits) : wrap n = n := by
  rw [wrap, Nat.one_shiftLeft, Nat.mod_eq_of_lt h]

/-- Neither are widths and places of 32 bits. -/
lemma wrap32_of_lt (h : n < 2 ^ 32) : wrap32 n = n := Nat.mod_eq_of_lt h

lemma wrap32_lt (n : ℕ) : wrap32 n < 2 ^ 32 := Nat.mod_lt n (by decide)

lemma wrap32_le (n : ℕ) : wrap32 n ≤ n := Nat.mod_le n _

lemma wrap64_of_lt (h : n < 2 ^ 64) : wrap64 n = n := Nat.mod_eq_of_lt h

/-- Nor are weights of 64 bits with a sign. -/
lemma wrapSigned64_of_mem {w : ℤ} (hlow : -2 ^ 63 ≤ w) (hhigh : w < 2 ^ 63) :
    wrapSigned64 w = w := by
  rw [wrapSigned64, Nat.one_shiftLeft, Nat.one_shiftLeft]
  omega

/-- Up to a word, a mask is one below a power of two. -/
lemma lowMask_eq (h : width ≤ wordBits) : lowMask width = 2 ^ width - 1 := by
  rw [lowMask, Nat.min_eq_left h, Nat.one_shiftLeft]

/-! ### Rounding up -/

lemma ceilDiv_zero {d : ℕ} (hd : 0 < d) : ceilDiv 0 d = 0 := Nat.div_eq_of_lt (by omega)

lemma ceilDiv_of_le {d : ℕ} (hn : 0 < n) (hnd : n ≤ d) : ceilDiv n d = 1 :=
  Nat.div_eq_of_lt_le (by omega) (by omega)

lemma ceilDiv_add_left {d : ℕ} (hd : 0 < d) (n : ℕ) : ceilDiv (d + n) d = ceilDiv n d + 1 := by
  rw [ceilDiv, Nat.add_assoc, Nat.add_sub_assoc (by omega), Nat.add_div_left _ hd]
  rfl

/-! ### Binary digits -/

/-- A number has so many digits. -/
lemma lt_two_pow_bitLength (n : ℕ) : n < 2 ^ bitLength n := by
  rw [bitLength]
  split_ifs with h
  · rw [h, pow_zero]
    exact Nat.one_pos
  · exact Nat.lt_log2_self

/-- A bit is a binary digit. -/
lemma bitAt_eq (n i : ℕ) : bitAt n i = n / 2 ^ i % 2 := by
  rw [bitAt, Nat.shiftRight_eq_div_pow]

/-- Within a word, a bit is a binary digit. -/
lemma wordBit_eq (h : i < wordBits) (n : ℕ) : wordBit n i = n / 2 ^ i % 2 := by
  rw [wordBit, if_pos h, bitAt_eq]

lemma wordBit_le_one (n i : ℕ) : wordBit n i ≤ 1 := by
  unfold wordBit
  split
  · exact bitAt_le_one n i
  · exact Nat.zero_le 1

/-- One more digit. -/
lemma mod_two_pow_succ (n i : ℕ) : n % 2 ^ (i + 1) = n % 2 ^ i + n / 2 ^ i % 2 * 2 ^ i := by
  rw [Nat.mod_pow_succ, Nat.mul_comm]

/-- The lowest digit apart from the others. -/
lemma sum_digits_succ (f : ℕ → ℕ) (count : ℕ) :
    ∑ i ∈ Finset.range (count + 1), f i * 2 ^ i =
      f 0 + 2 * ∑ i ∈ Finset.range count, f (i + 1) * 2 ^ i := by
  rw [Finset.sum_range_succ', Finset.mul_sum, Nat.add_comm, pow_zero, Nat.mul_one]
  congr 1
  exact Finset.sum_congr rfl fun i _ => by ring

/-- The low digits of a number make up its remainder. -/
lemma sum_bits (n width : ℕ) :
    ∑ i ∈ Finset.range width, n / 2 ^ i % 2 * 2 ^ i = n % 2 ^ width := by
  induction width with
  | zero => simp [Nat.mod_one]
  | succ width ih => rw [Finset.sum_range_succ, ih, mod_two_pow_succ]

/-- Up to a word, an integer is written as its remainder. -/
lemma truncateInt_eq (h : width ≤ wordBits) (n : ℤ) :
    (truncateInt width n : ℤ) = n % 2 ^ width := by
  have hpos : (0 : ℤ) < 2 ^ width := by positivity
  rw [truncateInt, Nat.min_eq_left h, Nat.one_shiftLeft, Int.toNat_of_nonneg]
  · norm_cast
  · exact Int.emod_nonneg _ (by exact_mod_cast hpos.ne')

/-- What is written to a width has it. -/
lemma truncateInt_lt (width : ℕ) (n : ℤ) : truncateInt width n < 2 ^ width := by
  have hpos : (0 : ℤ) < (2 ^ min width wordBits : ℕ) := by positivity
  have hle : 2 ^ min width wordBits ≤ 2 ^ width :=
    Nat.pow_le_pow_right (by norm_num) (Nat.min_le_left _ _)
  have hlt := Int.emod_lt_of_pos n hpos
  rw [truncateInt, Nat.one_shiftLeft]
  omega

/-- The top digit of a number says in which half of its range it lies. -/
lemma top_bit (hwidth : 0 < width) (hn : n < 2 ^ width) :
    n / 2 ^ (width - 1) % 2 = if n < 2 ^ (width - 1) then 0 else 1 := by
  obtain ⟨k, rfl⟩ := Nat.exists_eq_add_of_lt hwidth
  simp only [Nat.zero_add, Nat.add_sub_cancel] at *
  rw [pow_succ] at hn
  split_ifs with h
  · rw [Nat.div_eq_of_lt h]
  · rw [Nat.div_eq_of_lt_le (by omega) (by omega : n < 2 * 2 ^ k)]

/-- Numbers of one word with a sign are not cut. -/
lemma wrapSigned_of_mem {n : ℤ} (hlow : -2 ^ 127 ≤ n) (hhigh : n < 2 ^ 127) : wrapSigned n = n := by
  refine Int.bmod_eq_of_le ?_ ?_ <;> rw [Nat.one_shiftLeft, wordBits] <;> omega

/-- The remainder around zero of a number of some width is the number, less a power
of two if its top digit is set. -/
lemma bmod_two_pow (hn : n < 2 ^ width) :
    Int.bmod n (2 ^ width) =
      if 0 < width ∧ n / 2 ^ (width - 1) % 2 = 1 then (n : ℤ) - (2 ^ width : ℕ) else n := by
  rw [Int.bmod_def, ← Int.natCast_mod, Nat.mod_eq_of_lt hn]
  rcases Nat.eq_zero_or_pos width with rfl | hpos
  · obtain rfl : n = 0 := by omega
    simp
  · rw [top_bit hpos hn]
    have htwo : 2 ^ width = 2 * 2 ^ (width - 1) := by
      rw [← pow_succ', Nat.sub_add_cancel hpos]
    generalize 2 ^ width = m at *
    by_cases hhalf : n < 2 ^ (width - 1)
    · rw [if_pos hhalf, if_pos (by omega), if_neg (by simp)]
    · rw [if_neg hhalf, if_neg (by omega), if_pos ⟨hpos, rfl⟩]

/-- Up to a word, a number is read as its remainder around zero. The power of two
that is taken away from it may be too large for a word with a sign, but the
difference is not. -/
lemma signedValue_eq (h : width ≤ wordBits) (n : ℕ) :
    signedValue width n = Int.bmod n (2 ^ width) := by
  have hlow : n % 2 ^ width < 2 ^ width := Nat.mod_lt _ (by positivity)
  simp only [signedValue, truncateTo_eq h, bitAt_eq, Nat.one_shiftLeft]
  rcases h.eq_or_lt with rfl | hword
  · rw [if_neg (by omega), wrapSigned, Nat.one_shiftLeft, Int.natCast_mod, Int.emod_bmod]
  · have hsmall : 2 ^ width ≤ 2 ^ 127 :=
      Nat.pow_le_pow_right (by norm_num) (Nat.le_of_lt_succ hword)
    have hwrap : wrapSigned ((n % 2 ^ width : ℕ) - wrapSigned (2 ^ width : ℕ)) =
        (n % 2 ^ width : ℕ) - (2 ^ width : ℕ) := by
      rw [wrapSigned, wrapSigned, Int.sub_bmod_bmod, ← wrapSigned]
      exact wrapSigned_of_mem (by omega) (by omega)
    rw [hwrap, wrapSigned_of_mem (by omega) (by omega), ← Int.emod_bmod, ← Int.natCast_mod,
      bmod_two_pow hlow]
    simp only [hword, true_and]

/-- Of a number of the width itself nothing is cut. -/
lemma signedValue_of_lt (h : width ≤ wordBits) (hn : n < 2 ^ width) :
    signedValue width n =
      if 0 < width ∧ bitAt n (width - 1) = 1 then (n : ℤ) - (2 ^ width : ℕ) else n := by
  rw [signedValue_eq h, bmod_two_pow hn, bitAt_eq]

@[simp] lemma signedValue_zero (width : ℕ) : signedValue width 0 = 0 := by
  simp [signedValue, truncateTo, bitAt, wrapSigned]

/-- What is cut to at most one word may be cut to a word before. -/
lemma truncateInt_wrapSigned (width : ℕ) (n : ℤ) :
    truncateInt width (wrapSigned n) = truncateInt width n := by
  have hdvd : (2 ^ min width wordBits : ℕ) ∣ 2 ^ wordBits :=
    Nat.pow_dvd_pow _ (Nat.min_le_right _ _)
  simp only [truncateInt, wrapSigned, Nat.one_shiftLeft]
  rw [← Int.emod_emod_of_dvd _ (Int.natCast_dvd_natCast.mpr hdvd), Int.bmod_emod,
    Int.emod_emod_of_dvd _ (Int.natCast_dvd_natCast.mpr hdvd)]

/-- The top digit of a number with a sign counts negatively. -/
lemma signedValue_eq_digits (h : width ≤ wordBits) (hpos : 0 < width) (n : ℕ) :
    signedValue width n =
      truncateTo (width - 1) n - wordBit n (width - 1) * 2 ^ (width - 1) := by
  obtain ⟨k, rfl⟩ := Nat.exists_eq_add_of_lt hpos
  simp only [Nat.zero_add, Nat.add_sub_cancel] at *
  rw [signedValue_eq h, truncateTo_eq (by omega), wordBit_eq (by omega), Int.bmod_def]
  have hsplit := mod_two_pow_succ n k
  have hlow : n % 2 ^ k < 2 ^ k := Nat.mod_lt _ (by positivity)
  have htwo : 2 ^ (k + 1) = 2 * 2 ^ k := pow_succ' 2 k
  have hcast : (n : ℤ) % (2 ^ (k + 1) : ℕ) = (n % 2 ^ (k + 1) : ℕ) := (Int.natCast_mod _ _).symm
  have hpow : (2 : ℤ) ^ k = (2 ^ k : ℕ) := by push_cast; rfl
  rw [hcast, hsplit, htwo, hpow]
  generalize n % 2 ^ k = low at *
  generalize 2 ^ k = m at *
  rcases Nat.mod_two_eq_zero_or_one (n / m) with hbit | hbit
  · rw [hbit, if_pos (by omega)]
    simp
  · rw [hbit, if_neg (by omega)]
    push_cast
    ring

/-- The high digits of a number are those of its multiple. -/
lemma div_mod_of_scaled {s n : ℤ} {low guard wOut : ℕ}
    (h : s * 2 ^ low ≡ n [ZMOD 2 ^ (low + guard + wOut)]) :
    s / 2 ^ guard % 2 ^ wOut = n / 2 ^ (low + guard) % 2 ^ wOut := by
  obtain ⟨c, hc⟩ := h.dvd
  have hn : n = s * 2 ^ low + c * 2 ^ wOut * 2 ^ (low + guard) := by
    rw [pow_add] at hc
    linarith
  rw [hn, Int.add_mul_ediv_right _ _ (by positivity), Int.add_mul_emod_self_right, pow_add,
    Int.mul_comm (2 ^ low), Int.mul_ediv_mul_of_pos_left _ _ (by positivity)]

/-- Numbers that agree modulo a width have the same high digits in it. -/
lemma div_mod_of_modEq {s n : ℤ} {d wOut : ℕ} (h : s ≡ n [ZMOD 2 ^ (d + wOut)]) :
    s / 2 ^ d % 2 ^ wOut = n / 2 ^ d % 2 ^ wOut := by
  have hscaled : s * 2 ^ 0 ≡ n [ZMOD 2 ^ (0 + d + wOut)] := by
    rwa [pow_zero, mul_one, Nat.zero_add]
  have hhigh := div_mod_of_scaled hscaled
  rwa [Nat.zero_add] at hhigh

end Datapath
