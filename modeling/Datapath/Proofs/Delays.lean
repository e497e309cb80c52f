/-
Delays behind nothing.

* `place_zero_add`, `Delay.place_zero_add`: what is added to zero stays in its
  place, unless it is no number; so does what zero is taken from
  (`place_sub_zero`).
* `Delay.fits_zero_add`: a delay that fits in a period fits behind a delay of
  zero.
-/
import Datapath.Delay
import Datapath.Proofs.Floats

namespace Datapath

open Float.Model (Format UnpackedFloat)
open Float.Model.UnpackedFloat (unpackExponent unpackMantissa)

/-- What is taken apart and put together again is the same. -/
lemma pack_unpack (x : Float) : Float.Model.pack x.toModel.unpack = x.toModel :=
  congrArg Float.toModel (Float.ofBits_toBits x)

lemma unpack_zero : (0.0 : Float).toModel.unpack = .zero .positive := rfl

/-- What is added to zero stays in its place. -/
lemma place_zero_add (x : Float) : place? (0.0 + x) = place? x := by
  have hx := pack_unpack x
  change placeOfUnpacked (Float.Model.pack (UnpackedFloat.add Format.binary64
    (0.0 : Float).toModel.unpack x.toModel.unpack)).unpack = placeOfUnpacked x.toModel.unpack
  rw [unpack_zero]
  cases h : x.toModel.unpack with
  | notANumber => decide
  | zero s => cases s <;> decide +kernel
  | infinity s =>
    rw [h] at hx
    change placeOfUnpacked (Float.Model.pack (.infinity s)).unpack = _
    rw [hx, h]
  | finite s m e hpos =>
    rw [h] at hx
    change placeOfUnpacked (Float.Model.pack (.finite s m e hpos)).unpack = _
    rw [hx, h]

/-- What zero is taken from stays in its place. -/
lemma place_sub_zero (x : Float) : place? (x - 0.0) = place? x := by
  have hx := pack_unpack x
  change placeOfUnpacked (Float.Model.pack (UnpackedFloat.sub Format.binary64
    x.toModel.unpack (0.0 : Float).toModel.unpack)).unpack = placeOfUnpacked x.toModel.unpack
  rw [unpack_zero]
  cases h : x.toModel.unpack with
  | notANumber => decide
  | zero s => cases s <;> decide +kernel
  | infinity s =>
    rw [h] at hx
    change placeOfUnpacked (Float.Model.pack (.infinity s)).unpack = _
    rw [hx, h]
  | finite s m e hpos =>
    rw [h] at hx
    change placeOfUnpacked (Float.Model.pack (.finite s m e hpos)).unpack = _
    rw [hx, h]

/-- What zero is taken from is positive only if it was before. -/
lemma sub_zero_le {x : Float} : x - 0.0 ≤ 0.0 ↔ x ≤ 0.0 := by
  rw [float_le_iff, place_sub_zero, ← float_le_iff]

namespace Delay

variable {d : Delay}

lemma seconds_zero : (0.0 : Delay).seconds = 0.0 := Float.ofBits_toBits _

/-! ### What is no number -/

/-- The exponent has ones only. -/
lemma unpackExponent_eq_ones (b : UInt64) :
    @unpackExponent Format.binary64 b.toBitVec = -1#11 ↔
      b.toNat >>> 52 % 2 ^ 11 = 2047 := by
  rw [← BitVec.toNat_inj]
  change (b.toBitVec.extractLsb 62 52).toNat = 2047 ↔ _
  rw [BitVec.extractLsb_toNat]
  rfl

lemma exponent_of_not_number (h : d.isNumber = false) : d.bits.toNat >>> 52 % 2 ^ 11 = 2047 := by
  rw [isNumber, decide_eq_false_iff_not, UInt64.le_iff_toNat_le, UInt64.toNat_and] at h
  have hlow : d.bits.toNat &&& (0x7FFFFFFFFFFFFFFF : UInt64).toNat = d.bits.toNat % 2 ^ 63 :=
    Nat.and_two_pow_sub_one_eq_mod _ 63
  rw [hlow] at h
  change ¬ _ ≤ 0x7FF0000000000000 at h
  rw [Nat.shiftRight_eq_div_pow]
  omega

/-- What is no number stands nowhere, and it stays so. -/
lemma place_quiet (h : d.isNumber = false) : place? d.quiet.seconds = none := by
  have hexponent : @unpackExponent Format.binary64 d.quiet.bits.toBitVec = -1#11 := by
    rw [unpackExponent_eq_ones]
    change (d.bits ||| 0x0008000000000000).toNat >>> 52 % 2 ^ 11 = 2047
    rw [UInt64.toNat_or, Nat.shiftRight_or_distrib,
      show (0x0008000000000000 : UInt64).toNat >>> 52 = 0 from rfl, Nat.or_zero]
    exact exponent_of_not_number h
  -- the highest bit of the payload is set
  have hmantissa : @unpackMantissa Format.binary64 d.quiet.bits.toBitVec ≠ 0#52 := by
    intro hzero
    have hbit : (d.quiet.bits.toBitVec.extractLsb 51 0).getLsbD 51 = false := by
      change (@unpackMantissa Format.binary64 d.quiet.bits.toBitVec).getLsbD 51 = false
      rw [hzero]
      rfl
    rw [BitVec.getLsbD_extractLsb] at hbit
    change (true && (d.bits.toBitVec ||| 0x0008000000000000#64).getLsbD 51) = false at hbit
    simp at hbit
  change placeOfUnpacked (Float.Model.pack
    (UnpackedFloat.unpack Format.binary64 d.quiet.bits.toBitVec)).unpack = none
  rw [UnpackedFloat.unpack]
  dsimp only
  rw [if_pos hexponent, if_neg hmantissa]
  decide

/-! ### Nothing spent -/

/-- A delay behind nothing stays in its place, unless it is no number. -/
lemma place_zero_add (d : Delay) :
    place? ((0.0 : Delay) + d).seconds = none ∨
      place? ((0.0 : Delay) + d).seconds = place? d.seconds := by
  have hnumber : (0.0 : Delay).isNumber = true := rfl
  change place? (plus 0.0 d).seconds = none ∨ place? (plus 0.0 d).seconds = _
  rw [plus, hnumber, seconds_zero]
  cases hd : d.isNumber with
  | false => exact .inl (place_quiet hd)
  | true =>
    rw [Bool.not_true, if_neg Bool.false_ne_true, if_neg Bool.false_ne_true, ofResult]
    split
    · exact .inl (by decide +kernel)
    · rw [seconds, ofSeconds, Float.ofBits_toBits]
      exact .inr (Datapath.place_zero_add _)

/-- A delay that fits in a period fits behind nothing. -/
lemma fits_zero_add {period : Float} (h : ¬ d.seconds > period) :
    ¬ ((0.0 : Delay) + d).seconds > period := by
  intro hlate
  obtain ⟨p, q, hp, hq, hlt⟩ := float_lt_iff.mp hlate
  rcases place_zero_add d with hnone | hsame
  · rw [hnone] at hq
    cases hq
  · rw [hsame] at hq
    exact h (float_lt_iff.mpr ⟨p, q, hp, hq, hlt⟩)

end Delay

end Datapath
