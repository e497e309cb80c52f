/-
How far the outputs of a multiplier are from the product.

* `RoundsTo.near`: before it is cut to its width, an output is less than one
  unit away from the exact number.
* `RoundsTo.near_or_wrapped`: it stays so after the cut, unless rounding up
  carries out of the output and leaves zero.
* `narrow_of_top`: only an output that is narrower than both operands has
  products so large.
* `output_near_product`: so an output of a multiplier without signs is within
  one unit of the product, or it is zero for a product next to the greatest
  number; `output_wraps` is such an output.
-/
import Datapath.Proofs.Multiplier.Faithful

namespace Datapath

namespace RoundsTo

variable {d wOut r : ℕ} {exact : ℤ}

/-- Before it is cut to its width, the output is less than one unit away from
the exact number. -/
lemma near (h : RoundsTo d wOut exact r) :
    ∃ q : ℤ, (r : ℤ) = q % 2 ^ wOut ∧ |q * 2 ^ d - exact| < 2 ^ d := by
  obtain ⟨e, hnonneg, hlt, hr⟩ := h
  have hpos : (0 : ℤ) < 2 ^ d := by positivity
  refine ⟨(exact + e) / 2 ^ d, hr, ?_⟩
  -- what is cut off below the unit is at least zero, and so is what was added
  have hsplit := Int.ediv_mul_add_emod (exact + e) (2 ^ d)
  have hlow := Int.emod_nonneg (exact + e) hpos.ne'
  have hhigh := Int.emod_lt_of_pos (exact + e) hpos
  rw [abs_lt]
  constructor <;> linarith

/-- An output of a number that fits stays within one unit of it, unless it was
rounded up to one more than the greatest output. -/
lemma near_or_wrapped (h : RoundsTo d wOut exact r) (hnonneg : 0 ≤ exact)
    (hlt : exact < 2 ^ wOut * 2 ^ d) :
    |r * 2 ^ d - exact| < 2 ^ d ∨ r = 0 ∧ (2 ^ wOut - 1) * 2 ^ d < exact := by
  obtain ⟨q, hr, hnear⟩ := h.near
  have hpos : (0 : ℤ) < 2 ^ d := by positivity
  obtain ⟨hbelow, habove⟩ := abs_lt.mp hnear
  have hleast : 0 ≤ q := by
    by_contra hneg
    have hmul : q * 2 ^ d ≤ -1 * 2 ^ d := mul_le_mul_of_nonneg_right (by omega) hpos.le
    linarith
  have hmost : q ≤ 2 ^ wOut := by
    by_contra hlarge
    have hmul : (2 ^ wOut + 1) * 2 ^ d ≤ q * 2 ^ d :=
      mul_le_mul_of_nonneg_right (by omega) hpos.le
    linarith
  rcases lt_or_eq_of_le hmost with hfits | hcarry
  · left
    rw [hr, Int.emod_eq_of_lt hleast hfits]
    exact hnear
  · right
    rw [hcarry, Int.emod_self] at hr
    rw [hcarry] at habove
    refine ⟨by exact_mod_cast hr, ?_⟩
    linarith

end RoundsTo

/-- Only an output that is narrower than both operands has products above its
greatest number. -/
lemma narrow_of_top {wx wy d wOut x y : ℕ} (hsplit : d + wOut = wx + wy) (hx : x < 2 ^ wx)
    (hy : y < 2 ^ wy) (htop : ((2 ^ wOut - 1) * 2 ^ d : ℤ) < (x * y : ℕ)) :
    wOut < min wx wy := by
  have hproduct : (x : ℤ) * y ≤ (2 ^ wx - 1) * (2 ^ wy - 1) := by
    refine mul_le_mul (Int.le_sub_one_of_lt ?_) (Int.le_sub_one_of_lt ?_) (Int.natCast_nonneg _) ?_
    · exact_mod_cast hx
    · exact_mod_cast hy
    · exact Int.le_sub_one_of_lt (by positivity)
  have hfull : (2 : ℤ) ^ wOut * 2 ^ d = 2 ^ wx * 2 ^ wy := by
    rw [← pow_add, ← pow_add, Nat.add_comm, hsplit]
  have honex : (1 : ℤ) ≤ 2 ^ wx := one_le_pow₀ (by norm_num)
  have honey : (1 : ℤ) ≤ 2 ^ wy := one_le_pow₀ (by norm_num)
  push_cast at htop
  have hwx : (2 : ℤ) ^ wx < 2 ^ d := by linarith
  have hwy : (2 : ℤ) ^ wy < 2 ^ d := by linarith
  have hdx := (pow_lt_pow_iff_right₀ (by norm_num : (1 : ℤ) < 2)).mp hwx
  have hdy := (pow_lt_pow_iff_right₀ (by norm_num : (1 : ℤ) < 2)).mp hwy
  omega

namespace Multiplier

variable {t : Target} {wx wy wOut : ℕ} {options : MultiplierOptions} {m : Multiplier}
  {built : BuiltOperator}

/-- The outputs of a multiplier that could be built are rounded products. -/
lemma roundsTo_of_build [Tiling.Surroundings] {signed : Bool} (hword : wx + wy ≤ wordBits)
    (h : build t wx wy wOut signed options = .ok (m, built)) (x y : ℕ) :
    m.plan.wOut = (if wOut = 0 then wx + wy else wOut) ∧ 0 < m.plan.wOut ∧
      m.plan.wOut ≤ wx + wy ∧ ∃ r, m.evaluate x y = .ok r ∧
        RoundsTo (wx + wy - m.plan.wOut) m.plan.wOut (exactInt wx wy signed x y) r := by
  obtain ⟨p, hplan, hconstruct⟩ := except_bind_eq_ok.mp h
  obtain ⟨⟨low, hp⟩, rfl, rfl, rfl, hout⟩ := MultiplierPlan.make_eq_ok hword hplan
  obtain ⟨b, hsteps, rfl⟩ := construct_eq_ok hconstruct
  obtain ⟨rfl, hfaithful⟩ := MultiplierPlan.steps_faithful hp hsteps
  have hsplit := hp.columns.split
  have hposx := hp.posX
  have hpos : 0 < m.plan.wOut := by
    rw [hout]
    split_ifs <;> omega
  exact ⟨hout, hpos, by omega, hfaithful x y⟩

end Multiplier

/-- **An output is within one unit of the product, or it has wrapped.** A
multiplier without signs whose output is as wide as one of its operands puts
out a number less than one unit away from the product. A narrower output does
so, too, except where the product is above the greatest number that the output
can stand for and is rounded up: then the carry is lost, and the output is
zero. -/
theorem output_near_product [Tiling.Surroundings] {t : Target} {wx wy wOut : ℕ}
    {options : MultiplierOptions} {m : Multiplier} {built : BuiltOperator}
    (hword : wx + wy ≤ wordBits) (h : Multiplier.build t wx wy wOut false options = .ok (m, built))
    {x y : ℕ} (hx : x < 2 ^ wx) (hy : y < 2 ^ wy) :
    m.plan.wOut = (if wOut = 0 then wx + wy else wOut) ∧
      ∃ r : ℕ, m.evaluate x y = .ok r ∧
        (min wx wy ≤ m.plan.wOut →
          |(r * 2 ^ (wx + wy - m.plan.wOut) - x * y : ℤ)| < 2 ^ (wx + wy - m.plan.wOut)) ∧
        (|(r * 2 ^ (wx + wy - m.plan.wOut) - x * y : ℤ)| < 2 ^ (wx + wy - m.plan.wOut) ↔
          ¬ (r = 0 ∧ (2 ^ m.plan.wOut - 1) * 2 ^ (wx + wy - m.plan.wOut) < (x * y : ℤ))) := by
  obtain ⟨hout, hpos, hle, r, hr, hrounds⟩ := Multiplier.roundsTo_of_build hword h x y
  obtain ⟨d, hd⟩ := Nat.exists_eq_add_of_le' hle
  have hexact : exactInt wx wy false x y = (x * y : ℕ) := by
    rw [exactInt, if_neg Bool.false_ne_true, Nat.mod_eq_of_lt hx, Nat.mod_eq_of_lt hy]
  have hfits : ((x * y : ℕ) : ℤ) < 2 ^ m.plan.wOut * 2 ^ d := by
    rw [← pow_add, Nat.add_comm, ← hd, pow_add]
    exact_mod_cast Nat.mul_lt_mul'' hx hy
  rw [hexact, hd, Nat.add_sub_cancel] at hrounds
  have hnear := hrounds.near_or_wrapped (Int.natCast_nonneg _) hfits
  have hnarrow := narrow_of_top hd.symm hx hy
  refine ⟨hout, r, hr, ?_⟩
  rw [hd, Nat.add_sub_cancel]
  push_cast at hnear hnarrow
  refine ⟨fun hwide => ?_, fun hclose => ?_, fun hnot => ?_⟩
  · refine hnear.resolve_right fun hwrapped => ?_
    have := hnarrow hwrapped.2
    omega
  · -- zero is far from a product that is one unit or more
    rintro ⟨rfl, htop⟩
    have hunit : (2 ^ 1 - 1) * 2 ^ d ≤ ((2 ^ m.plan.wOut - 1) * 2 ^ d : ℤ) := by
      gcongr
      · norm_num
      · exact hpos
    obtain ⟨hbelow, -⟩ := abs_lt.mp hclose
    push_cast at hbelow
    linarith
  · exact hnear.resolve_right hnot

open Runs MultiplierRuns in
/-- A small multiplier with an output of one bit can be built. It is a table,
and rounding the greatest product carries out of its output. -/
lemma Multiplier.build_oneBit :
    ∃ m built, Multiplier.build unclocked 3 3 1 false .standard = .ok (m, built) ∧
      m.evaluate 7 7 = .ok 0 := by
  have hlut : 3 + 3 ≤ unclocked.lutInputs + 2 := by decide
  have hpipelined : unclocked.pipelined = false := rfl
  simp [ProductTable.component, ProductTable.build, ProductTable.inputWidth, placeTable,
    Multiplier.evaluate, hlut, hpipelined]
  decide

theorem output_near_product_oneBit :
    ∃ m built, Multiplier.build unclocked 3 3 1 false .standard = .ok (m, built) ∧
      ∃ r : ℕ, m.evaluate 5 6 = .ok r ∧ |(r * 2 ^ 5 - 5 * 6 : ℤ)| < 2 ^ 5 := by
  obtain ⟨m, built, hbuild, -⟩ := Multiplier.build_oneBit
  obtain ⟨hout, r, hr, -, hiff⟩ :=
    output_near_product (by decide) hbuild (x := 5) (y := 6) (by decide) (by decide)
  rw [hout] at hiff
  exact ⟨m, built, hbuild, r, hr, hiff.mpr (by rintro ⟨-, htop⟩; revert htop; decide)⟩

theorem output_wraps :
    ∃ m built, Multiplier.build unclocked 3 3 1 false .standard = .ok (m, built) ∧
      7 < 2 ^ 3 ∧ m.evaluate 7 7 = .ok 0 ∧
      ¬ |(0 * 2 ^ (3 + 3 - 1) - 7 * 7 : ℤ)| < 2 ^ (3 + 3 - 1) := by
  obtain ⟨m, built, hbuild, hzero⟩ := Multiplier.build_oneBit
  exact ⟨m, built, hbuild, by decide, hzero, by decide⟩

end Datapath
