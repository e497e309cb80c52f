/-
The order of floating-point numbers.

* `place?`: where a number stands among all of them. What is no number stands
  nowhere, and both zeros stand in one place.
* `float_lt_iff`, `float_beq_iff`, `float_le_iff`: comparisons compare places;
  `float_lt_trans` and its like follow.
-/
import Mathlib

namespace Datapath

open Float.Model (UnpackedFloat)

/-- Where an unpacked number stands: by its sign and whether it is zero or
infinite, then by its exponent, then by its mantissa. -/
def placeOfUnpacked : UnpackedFloat → Option (ℤ ×ₗ ℤ ×ₗ ℤ)
  | .notANumber => none
  | .infinity .negative => some (toLex (-2, toLex (0, 0)))
  | .finite .negative m e _ => some (toLex (-1, toLex (-e, -m)))
  | .zero _ => some (toLex (0, toLex (0, 0)))
  | .finite .positive m e _ => some (toLex (1, toLex (e, m)))
  | .infinity .positive => some (toLex (2, toLex (0, 0)))

lemma compare_eq_lt {a b : UnpackedFloat} :
    a.compare b = some .lt ↔
      ∃ x y, placeOfUnpacked a = some x ∧ placeOfUnpacked b = some y ∧ x < y := by
  rcases a with (_ | _) | _ | _ | ⟨_ | _, m, e, _⟩ <;>
    rcases b with (_ | _) | _ | _ | ⟨_ | _, n, f, _⟩ <;>
    simp [placeOfUnpacked, UnpackedFloat.compare, Prod.Lex.toLex_lt_toLex, compare,
      compareOfLessAndEq]
  -- what is left are two numbers of one sign
  all_goals
    split_ifs <;> simp <;> omega

lemma compare_eq_eq {a b : UnpackedFloat} :
    a.compare b = some .eq ↔ ∃ x, placeOfUnpacked a = some x ∧ placeOfUnpacked b = some x := by
  rcases a with (_ | _) | _ | _ | ⟨_ | _, m, e, _⟩ <;>
    rcases b with (_ | _) | _ | _ | ⟨_ | _, n, f, _⟩ <;>
    simp only [placeOfUnpacked, UnpackedFloat.compare, compare, compareOfLessAndEq] <;>
    (try split_ifs) <;> simp <;> omega

/-- Where a number stands. -/
def place? (x : Float) : Option (ℤ ×ₗ ℤ ×ₗ ℤ) := placeOfUnpacked x.toModel.unpack

variable {x y z : Float}

/-- What is no number stands nowhere. -/
lemma place_of_isNaN (h : x.isNaN = true) : place? x = none := by
  change x.toModel.unpack.isNaN = true at h
  rw [place?]
  cases hx : x.toModel.unpack with
  | notANumber => rfl
  | _ =>
    rw [hx] at h
    cases h

/-- Every number stands somewhere. -/
lemma exists_place (h : x.isNaN = false) : ∃ p, place? x = some p := by
  change x.toModel.unpack.isNaN = false at h
  rw [place?]
  cases hx : x.toModel.unpack with
  | notANumber =>
    rw [hx] at h
    cases h
  | infinity s | finite s => cases s <;> exact ⟨_, rfl⟩
  | zero => exact ⟨_, rfl⟩

lemma float_lt_iff : x < y ↔ ∃ p q, place? x = some p ∧ place? y = some q ∧ p < q := by
  refine Iff.trans ?_ compare_eq_lt
  change decide ((x.toModel.unpack.compare y.toModel.unpack == some .lt) = true) = true ↔ _
  rw [decide_eq_true_iff, beq_iff_eq]

lemma float_beq_iff : (x == y) = true ↔ ∃ p, place? x = some p ∧ place? y = some p := by
  refine Iff.trans ?_ compare_eq_eq
  change (x.toModel.unpack.compare y.toModel.unpack == some .eq) = true ↔ _
  exact beq_iff_eq

lemma float_le_iff : x ≤ y ↔ ∃ p q, place? x = some p ∧ place? y = some q ∧ p ≤ q := by
  have hle : x ≤ y ↔ x < y ∨ (x == y) = true := by
    change decide ((x.toModel.unpack.compare y.toModel.unpack).any (·.isLE) = true) = true ↔
      decide ((x.toModel.unpack.compare y.toModel.unpack == some .lt) = true) = true ∨
        (x.toModel.unpack.compare y.toModel.unpack == some .eq) = true
    rcases x.toModel.unpack.compare y.toModel.unpack with _ | _ | _ | _ <;> decide
  rw [hle, float_lt_iff, float_beq_iff]
  constructor
  · rintro (⟨p, q, hp, hq, hpq⟩ | ⟨p, hp, hq⟩)
    · exact ⟨p, q, hp, hq, hpq.le⟩
    · exact ⟨p, p, hp, hq, le_rfl⟩
  · rintro ⟨p, q, hp, hq, hpq⟩
    rcases hpq.lt_or_eq with hlt | rfl
    · exact .inl ⟨p, q, hp, hq, hlt⟩
    · exact .inr ⟨p, hp, hq⟩

lemma float_lt_trans (hxy : x < y) (hyz : y < z) : x < z := by
  obtain ⟨p, q, hp, hq, hpq⟩ := float_lt_iff.mp hxy
  obtain ⟨q', r, hq', hr, hqr⟩ := float_lt_iff.mp hyz
  cases hq.symm.trans hq'
  exact float_lt_iff.mpr ⟨p, r, hp, hr, hpq.trans hqr⟩

lemma float_le_trans (hxy : x ≤ y) (hyz : y ≤ z) : x ≤ z := by
  obtain ⟨p, q, hp, hq, hpq⟩ := float_le_iff.mp hxy
  obtain ⟨q', r, hq', hr, hqr⟩ := float_le_iff.mp hyz
  cases hq.symm.trans hq'
  exact float_le_iff.mpr ⟨p, r, hp, hr, hpq.trans hqr⟩

lemma float_lt_of_not_le (hx : x.isNaN = false) (hy : y.isNaN = false) (h : ¬ y ≤ x) : x < y := by
  obtain ⟨p, hp⟩ := exists_place hx
  obtain ⟨q, hq⟩ := exists_place hy
  refine float_lt_iff.mpr ⟨p, q, hp, hq, lt_of_not_ge fun hle => h ?_⟩
  exact float_le_iff.mpr ⟨q, p, hq, hp, hle⟩

/-- Nothing is below what is no number. -/
lemma not_float_le_of_isNaN (h : y.isNaN = true) : ¬ x ≤ y := by
  intro hle
  obtain ⟨p, q, -, hq, -⟩ := float_le_iff.mp hle
  cases (place_of_isNaN h).symm.trans hq

lemma float_lt_of_lt_of_beq (hxy : x < y) (hyz : (y == z) = true) : x < z := by
  obtain ⟨p, q, hp, hq, hpq⟩ := float_lt_iff.mp hxy
  obtain ⟨q', hq', hr⟩ := float_beq_iff.mp hyz
  cases hq.symm.trans hq'
  exact float_lt_iff.mpr ⟨p, q, hp, hr, hpq⟩

lemma float_lt_of_beq_of_lt (hxy : (x == y) = true) (hyz : y < z) : x < z := by
  obtain ⟨p, hp, hq⟩ := float_beq_iff.mp hxy
  obtain ⟨p', r, hp', hr, hpr⟩ := float_lt_iff.mp hyz
  cases hq.symm.trans hp'
  exact float_lt_iff.mpr ⟨p, r, hp, hr, hpr⟩

lemma float_lt_irrefl (x : Float) : ¬ x < x := by
  intro h
  obtain ⟨p, q, hp, hq, hpq⟩ := float_lt_iff.mp h
  cases hp.symm.trans hq
  exact lt_irrefl p hpq

end Datapath
