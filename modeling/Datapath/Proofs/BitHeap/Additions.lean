/-
What every addition to a bit heap adds.

* `BitHeap.Gain`: the sum of a heap grows by an amount, modulo the width, and
  nothing else changes but bits.
* `BitHeap.Counts`, `BitHeap.CountsTop`: the weights of an addition and the top of
  the heap can be counted. Then places are differences of weights
  (`place_eq_ok`).
* `addBit_gain`, `addUnsigned_gain`, `addSigned_gain`, `addConstant_gain`,
  `addSignExtension_gain`, …: an addition that succeeds adds what it stands
  for, at the place of its weight.
* `Keeps`: steps that keep a property of the state even if they fail.
* `BitHeap.Lasting`: a property that new bits of some signals do not change, as
  the shape of the heap or the signals of its bits. `addBit_keeps`, …: additions
  of such signals keep it.
-/
import Datapath.Proofs.BitHeap.Total
import Datapath.Proofs.Steps
import Mathlib.Algebra.Field.Rat
import Mathlib.Algebra.Order.Field.Power
import Mathlib.Tactic.Positivity

namespace Datapath

open AddCommGroup (ModEq)

/-! ### Residues -/

/-- Multiples of a power of two vanish modulo the smaller powers. -/
lemma zpow_modEq_zero {n : ℕ} {k : ℤ} (h : n ≤ k) (m : ℤ) : (m : ℚ) * 2 ^ k ≡ 0 [PMOD 2 ^ n] := by
  obtain ⟨d, rfl⟩ : ∃ d : ℕ, k = (d + n : ℕ) := ⟨(k - n).toNat, by omega⟩
  refine AddCommGroup.modEq_zero_iff_eq_zsmul.mpr ⟨m * 2 ^ d, ?_⟩
  rw [zsmul_eq_mul, zpow_natCast, pow_add]
  push_cast
  ring

namespace BitHeap

/-- The sum of the heap grows by an amount, modulo the width. -/
structure Gain (h h' : BitHeap) (v : Assignment) (amount : ℚ) : Prop where
  shape : h.SameShape h'
  total : (h'.total v : ℚ) ≡ h.total v + amount [PMOD 2 ^ h.width]

variable {h h' h₁ h₂ : BitHeap} {v : Assignment} {a a' : ℚ}

lemma Gain.none (h : BitHeap) (v : Assignment) : h.Gain h v 0 :=
  ⟨.refl h, by rw [add_zero]⟩

lemma Gain.trans (hgain : h.Gain h₁ v a) (hgain' : h₁.Gain h₂ v a') : h.Gain h₂ v (a + a') := by
  refine ⟨hgain.shape.trans hgain'.shape, ?_⟩
  have hmod := hgain'.total
  rw [hgain.shape.width] at hmod
  rw [← add_assoc]
  exact hmod.trans (hgain.total.add_right a')

/-- A whole amount may be read among whole numbers. -/
lemma Gain.int {amount : ℤ} {k : ℕ} (hgain : h.Gain h' v (amount * 2 ^ (k : ℤ))) :
    (h'.total v : ℤ) ≡ h.total v + amount * 2 ^ k [ZMOD 2 ^ h.width] := by
  refine AddCommGroup.modEq_iff_intModEq.mp (AddCommGroup.intCast_modEq_intCast (G := ℚ).mp ?_)
  push_cast
  rw [← zpow_natCast (2 : ℚ) k]
  exact hgain.total

/-- An amount below the lowest weight may be read in smaller units. -/
lemma Gain.scaled {amount : ℤ} {low : ℕ} (hgain : h.Gain h' v (amount * 2 ^ (-low : ℤ))) :
    (h'.total v * 2 ^ low : ℤ) ≡ h.total v * 2 ^ low + amount [ZMOD 2 ^ (low + h.width)] := by
  refine AddCommGroup.modEq_iff_intModEq.mp (AddCommGroup.intCast_modEq_intCast (G := ℚ).mp ?_)
  have hscaled := hgain.total.zsmul (z := 2 ^ low)
  simp only [zsmul_eq_mul, zpow_neg, zpow_natCast] at hscaled
  push_cast at hscaled ⊢
  rw [mul_comm _ (h'.total v : ℚ), mul_add, mul_left_comm, mul_inv_cancel₀ (by positivity), mul_one,
    mul_comm _ (h.total v : ℚ)] at hscaled
  rw [pow_add]
  exact hscaled

/-- If the bits that were there keep their values, the totals for the new values
give the value of the heap before and after. -/
lemma Gain.value_before_after {before after : Valuation} {n : ℕ} (hgain : h.Gain h' after.total a)
    (hwidth : h.width ≤ wordBits) (hkeep : h.On fun id => after id = before id)
    (hafter : h'.On (after.Gives after.total)) (hn : h.value before = .ok n) :
    n = h.total after.total % 2 ^ h.width ∧
      h'.value after = .ok (h'.total after.total % 2 ^ h.width) := by
  have hbefore := value_eq ((on_of_value hn).mono fun id hid => Valuation.gives_total hid) hwidth
  rw [hn, Except.ok.injEq] at hbefore
  have hsame : h.total before.total = h.total after.total :=
    total_congr (hkeep.mono fun id heq => by rw [Valuation.total, Valuation.total, heq])
  have hwidth' := hgain.shape.width
  exact ⟨hsame ▸ hbefore, hwidth' ▸ value_eq hafter (hwidth' ▸ hwidth)⟩

/-- If the bits that were there keep their values, the value of the heap grows
by the amount, modulo the width. -/
lemma Gain.value {before after : Valuation} {amount : ℤ} {k n : ℕ}
    (hgain : h.Gain h' after.total (amount * 2 ^ (k : ℤ))) (hwidth : h.width ≤ wordBits)
    (hkeep : h.On fun id => after id = before id) (hafter : h'.On (after.Gives after.total))
    (hn : h.value before = .ok n) :
    ∃ n' : ℕ, h'.value after = .ok n' ∧ (n' : ℤ) = (n + amount * 2 ^ k) % 2 ^ h.width := by
  obtain ⟨hbefore, hvalue⟩ := hgain.value_before_after hwidth hkeep hafter hn
  refine ⟨_, hvalue, ?_⟩
  rw [hbefore]
  push_cast
  exact hgain.int.trans ((Int.mod_modEq _ _).symm.add_right _)

/-- The amount only counts modulo the width. -/
lemma Gain.of_modEq (hgain : h.Gain h' v a) (hmod : a ≡ a' [PMOD 2 ^ h.width]) :
    h.Gain h' v a' :=
  ⟨hgain.shape, hgain.total.trans (hmod.add_left _)⟩

/-! ### Weights that can be counted -/

/-- Of `count` weights from `weight` on, and of their distances from the lowest
weight of the heap, all can be counted in 64 bits. -/
def Counts (h : BitHeap) (weight : ℤ) (count : ℕ) : Prop :=
  (-2 ^ 63 ≤ weight ∧ weight + count ≤ 2 ^ 63) ∧
    -2 ^ 63 ≤ weight - h.lsbWeight ∧ weight + count - h.lsbWeight ≤ 2 ^ 63

instance (h : BitHeap) (weight : ℤ) (count : ℕ) : Decidable (h.Counts weight count) :=
  inferInstanceAs (Decidable (_ ∧ _))

/-- The weights of all columns can be counted, and so can the one above them. -/
def CountsTop (h : BitHeap) : Prop := h.Counts h.lsbWeight (h.width + 1)

instance (h : BitHeap) : Decidable h.CountsTop := inferInstanceAs (Decidable (h.Counts _ _))

/-- The distance of a weight from the lowest one, as it is counted. -/
def offset (h : BitHeap) (weight : ℤ) : ℤ := wrapSigned64 (wrapSigned64 weight - h.lsbWeight)

namespace Counts

variable {weight : ℤ} {count i n : ℕ}

lemma of_sameShape (hcounts : h.Counts weight count) (hshape : h.SameShape h') :
    h'.Counts weight count := by
  rwa [Counts, hshape.lsbWeight]

lemma part (hcounts : h.Counts weight count) (hin : i + n ≤ count) : h.Counts (weight + i) n := by
  unfold Counts at *
  omega

lemma first (hcounts : h.Counts weight (count + 1)) : h.Counts weight 1 := by
  unfold Counts at *
  omega

lemma rest (hcounts : h.Counts weight (count + 1)) : h.Counts (weight + 1) count := by
  unfold Counts at *
  omega

/-- The weights below the top of the heap. -/
lemma upTo (hcounts : h.Counts weight 1) (htop : h.CountsTop) :
    h.Counts weight (h.lsbWeight + h.width - weight).toNat := by
  unfold CountsTop Counts at *
  omega

lemma wrap_eq (hcounts : h.Counts weight 1) : wrapSigned64 weight = weight := by
  unfold Counts at hcounts
  exact wrapSigned64_of_mem (by omega) (by omega)

lemma offset_eq (hcounts : h.Counts weight 1) : h.offset weight = weight - h.lsbWeight := by
  rw [offset, hcounts.wrap_eq]
  unfold Counts at hcounts
  exact wrapSigned64_of_mem (by omega) (by omega)

end Counts

lemma CountsTop.of_sameShape (htop : h.CountsTop) (hshape : h.SameShape h') : h'.CountsTop := by
  rw [CountsTop, hshape.lsbWeight, hshape.width]
  exact Counts.of_sameShape htop hshape

/-- The weight above the top column is the one that is counted. -/
lemma CountsTop.wrap_eq (htop : h.CountsTop) :
    wrapSigned64 (h.lsbWeight + h.width) = h.lsbWeight + h.width :=
  (Counts.part (n := 1) htop le_rfl).wrap_eq

end BitHeap

namespace Heaping

variable {h h' : BitHeap} {s : Schedule} {id : SignalId} {weight : ℤ} {v : Assignment}

/-! ### Places -/

/-- A weight has a place in the heap, or it is dropped because it is above the
top column. -/
lemma place_ok {w : Option ℕ} (hplace : place weight h = .ok w h') :
    h' = h ∧ 0 ≤ h.offset weight ∧
      ((∃ i : ℕ, w = some i ∧ i < h.width ∧ (i : ℤ) = h.offset weight) ∨
        (w = none ∧ h.overflow = .modular ∧ h.width ≤ h.offset weight)) := by
  unfold place at hplace
  cases hw : h.place weight with
  | error e =>
    rw [hw] at hplace
    cases hplace
  | ok w' =>
    rw [hw] at hplace
    cases hplace
    unfold BitHeap.offset
    simp only [BitHeap.place] at hw
    split_ifs at hw with hlow htop
    · cases hw
      exact ⟨rfl, by omega, .inl ⟨_, rfl, by omega, by omega⟩⟩
    · split at hw <;> cases hw
      exact ⟨rfl, by omega, .inr ⟨rfl, ‹_›, by omega⟩⟩

/-- The place of a weight is its distance from the lowest one. -/
lemma place_eq_ok {w : Option ℕ} (hcounts : h.Counts weight 1)
    (hplace : place weight h = .ok w h') :
    h' = h ∧ h.lsbWeight ≤ weight ∧
      ((∃ i : ℕ, w = some i ∧ i < h.width ∧ (i : ℤ) = weight - h.lsbWeight) ∨
        (w = none ∧ h.width ≤ weight - h.lsbWeight)) := by
  obtain ⟨hsame, hlow, hcases⟩ := place_ok hplace
  rw [hcounts.offset_eq] at hlow hcases
  exact ⟨hsame, by omega, hcases.imp_right fun hnone => ⟨hnone.1, hnone.2.2⟩⟩

/-! ### Amounts -/

/-- Additions only reach up from the lowest weight. -/
lemma lsbWeight_le_of_addBit {b : BitRef} {ready : Instant} (hcounts : h.Counts weight 1)
    (hadd : addBit weight b ready h = .ok () h') : h.lsbWeight ≤ weight := by
  obtain ⟨w, h₁, hplace, -⟩ := bind_eq_ok.mp hadd
  exact (place_eq_ok hcounts hplace).2.1

/-- A bit adds its value. -/
lemma addBit_gain {b : BitRef} {ready : Instant} (hcounts : h.Counts weight 1)
    (hadd : addBit weight b ready h = .ok () h') (v : Assignment) :
    h.Gain h' v (b.valueIn (v b.signal) * 2 ^ (weight - h.lsbWeight)) := by
  obtain ⟨w, h₁, hplace, hrest⟩ := bind_eq_ok.mp hadd
  obtain ⟨rfl, -, ⟨i, rfl, hi, hplace⟩ | ⟨rfl, htop⟩⟩ := place_eq_ok hcounts hplace
  · obtain rfl := modify_eq_ok.mp hrest
    refine ⟨⟨rfl, rfl, rfl⟩, ?_⟩
    rw [BitHeap.total_put hi, ← hplace, zpow_natCast]
    push_cast
    exact AddCommGroup.modEq_rfl
  · obtain ⟨-, rfl⟩ := pure_eq_ok.mp hrest
    exact (BitHeap.Gain.none h₁ v).of_modEq (zpow_modEq_zero htop (b.valueIn (v b.signal))).symm

/-- The signals are those of the schedule. -/
lemma signal_eq_ok {g : Signal} : signal s id h = .ok g h' ↔ s.signal? id = some g ∧ h = h' := by
  rw [signal]
  cases s.signal? id with
  | some g' => rw [pure_eq_ok, Option.some.injEq]
  | none => simp [throw_eq_ok]

/-- A bit of a signal lies in the signal and adds its value. -/
lemma addSignalBit_gain {b : BitRef} (hcounts : h.Counts weight 1)
    (hadd : addSignalBit s weight b h = .ok () h') (v : Assignment) :
    h.lsbWeight ≤ weight ∧
      h.Gain h' v (b.valueIn (v b.signal) * 2 ^ (weight - h.lsbWeight)) := by
  obtain ⟨g, h₁, hsignal, hrest⟩ := bind_eq_ok.mp hadd
  obtain ⟨-, rfl⟩ := signal_eq_ok.mp hsignal
  split_ifs at hrest
  · exact (throw_eq_ok.mp hrest).elim
  · exact ⟨lsbWeight_le_of_addBit hcounts hrest, addBit_gain hcounts hrest v⟩

/-- A constant one adds its weight. -/
lemma addOne_gain (hcounts : h.Counts weight 1) (hadd : addOne weight h = .ok () h')
    (v : Assignment) : h.Gain h' v (2 ^ (weight - h.lsbWeight)) := by
  obtain ⟨w, h₁, hplace, hrest⟩ := bind_eq_ok.mp hadd
  obtain ⟨rfl, -, ⟨i, rfl, hi, hplace⟩ | ⟨rfl, htop⟩⟩ := place_eq_ok hcounts hplace
  · obtain rfl := modify_eq_ok.mp hrest
    refine ⟨⟨rfl, rfl, rfl⟩, ?_⟩
    rw [BitHeap.total_putOne hi, ← hplace, zpow_natCast]
    push_cast
    exact AddCommGroup.modEq_rfl
  · obtain ⟨-, rfl⟩ := pure_eq_ok.mp hrest
    have hzero := zpow_modEq_zero htop 1
    rw [Int.cast_one, one_mul] at hzero
    exact (BitHeap.Gain.none h₁ v).of_modEq hzero.symm

/-- Constant ones side by side add what they make up. -/
lemma addOnes_gain {count : ℕ} (hcounts : h.Counts weight count)
    (hadd : addOnes weight count h = .ok () h') (v : Assignment) :
    h.Gain h' v ((2 ^ count - 1) * 2 ^ (weight - h.lsbWeight)) := by
  induction count generalizing h weight with
  | zero =>
    obtain ⟨-, rfl⟩ := pure_eq_ok.mp hadd
    simpa using BitHeap.Gain.none h v
  | succ count ih =>
    obtain ⟨_, h₁, hone, hrest⟩ := bind_eq_ok.mp hadd
    have hgain := addOne_gain hcounts.first hone v
    have hsum := hgain.trans (ih (hcounts.rest.of_sameShape hgain.shape) hrest)
    have hplace : weight + 1 - h.lsbWeight = weight - h.lsbWeight + 1 := by ring
    rw [hgain.shape.lsbWeight, hplace, zpow_add_one₀ (by norm_num)] at hsum
    convert hsum using 1
    ring

/-- Constant ones up to the top column subtract the weight of the lowest of
them. -/
lemma addSignExtension_gain (hcounts : h.Counts weight 1) (htop : h.CountsTop)
    (hadd : addSignExtension weight h = .ok () h') (v : Assignment) :
    h.Gain h' v (-2 ^ (weight - h.lsbWeight)) := by
  obtain ⟨h₀, h₁, hget, hrest⟩ := bind_eq_ok.mp hadd
  obtain ⟨rfl, rfl⟩ := get_eq_ok.mp hget
  rw [htop.wrap_eq, hcounts.wrap_eq] at hrest
  refine (addOnes_gain (hcounts.upTo htop) hrest v).of_modEq ?_
  set count := (h.lsbWeight + h.width - weight).toNat
  have hreach : (h.width : ℤ) ≤ count + (weight - h.lsbWeight) := by omega
  have hzero := zpow_modEq_zero hreach 1
  rw [Int.cast_one, one_mul, zpow_add₀ (by norm_num), zpow_natCast] at hzero
  rw [sub_mul, one_mul, ← zero_sub]
  exact hzero.sub_right _

end Heaping

/-! ### Bits of known signals -/

/-- Steps that keep a property of the state, whether they succeed or fail. -/
def Keeps {ε σ α : Type} (I : σ → Prop) (f : EStateM ε σ α) : Prop :=
  ∀ s, I s → (∀ a s', f s = .ok a s' → I s') ∧ ∀ e s', f s = .error e s' → I s'

namespace Keeps

variable {ε σ α β : Type} {I : σ → Prop}

lemma pure (a : α) : Keeps I (Pure.pure a : EStateM ε σ α) := fun s hs =>
  ⟨fun _ _ h => (pure_eq_ok.mp h).2 ▸ hs, fun _ _ h => by cases h⟩

lemma throw (e : ε) : Keeps I (MonadExcept.throw e : EStateM ε σ α) := fun s hs =>
  ⟨fun _ _ h => (throw_eq_ok.mp h).elim, fun _ _ h => by cases h; exact hs⟩

lemma get : Keeps I (MonadState.get : EStateM ε σ σ) := fun s hs =>
  ⟨fun _ _ h => (get_eq_ok.mp h).2 ▸ hs, fun _ _ h => by cases h⟩

lemma modify {f : σ → σ} (hf : ∀ s, I s → I (f s)) :
    Keeps I (modify f : EStateM ε σ PUnit) := fun s hs =>
  ⟨fun _ _ h => modify_eq_ok.mp h ▸ hf s hs, fun _ _ h => by cases h⟩

lemma bind {x : EStateM ε σ α} {f : α → EStateM ε σ β} (hx : Keeps I x) (hf : ∀ a, Keeps I (f a)) :
    Keeps I (x >>= f) := by
  intro s hs
  refine ⟨?_, ?_⟩
  · intro r s'' h
    obtain ⟨a, s', h₁, h₂⟩ := bind_eq_ok.mp h
    exact (hf a s' ((hx s hs).1 a s' h₁)).1 r s'' h₂
  · intro e s'' h
    change EStateM.bind x f s = _ at h
    rw [EStateM.bind] at h
    split at h
    case h_1 a s' h₁ => exact (hf a s' ((hx s hs).1 a s' h₁)).2 e s'' h
    case h_2 e' s' h₁ =>
      cases h
      exact (hx s hs).2 e s'' h₁

lemma ite {c : Prop} [Decidable c] {x y : EStateM ε σ α} (hx : Keeps I x) (hy : Keeps I y) :
    Keeps I (if c then x else y) := by
  split <;> assumption

end Keeps

namespace BitHeap

/-- A property of heaps that bits of some signals and constant ones do not
change. -/
structure Lasting (P : SignalId → Prop) (I : BitHeap → Prop) : Prop where
  put : ∀ {h : BitHeap} {w : ℕ} {b : HeapBit}, b.source.On P → I h → I (h.put w b)
  putOne : ∀ {h : BitHeap} {w : ℕ}, I h → I (h.putOne w)

/-- All bits are of these signals. -/
lemma lasting_on (P : SignalId → Prop) : Lasting P (On P) where
  put hb hon w' b' hmem := by
    rcases mem_column_put hmem with hold | rfl
    · exact hon w' b' hold
    · exact hb
  putOne hon := hon

/-- The shape is that of an earlier heap. -/
lemma lasting_sameShape (P : SignalId → Prop) (h : BitHeap) : Lasting P h.SameShape :=
  ⟨fun _ hshape => hshape.trans ⟨rfl, rfl, rfl⟩, fun hshape => hshape.trans ⟨rfl, rfl, rfl⟩⟩

end BitHeap

namespace Heaping

variable {s : Schedule} {id : SignalId} {P : SignalId → Prop} {I : BitHeap → Prop}

lemma place_keeps (weight : ℤ) : Keeps I (place weight) := by
  intro h hI
  refine ⟨fun w h' hplace => (place_ok hplace).1 ▸ hI, fun e h' hplace => ?_⟩
  unfold place at hplace
  cases hw : h.place weight with
  | ok w =>
    rw [hw] at hplace
    cases hplace
  | error =>
    rw [hw] at hplace
    cases hplace
    exact hI

lemma signal_keeps : Keeps I (signal s id) := by
  rw [signal]
  split
  · exact .pure _
  · exact .throw _

variable (hI : BitHeap.Lasting P I)

include hI

/-- A bit of a signal only brings that signal into the heap. -/
lemma addBit_keeps (weight : ℤ) {b : BitRef} (ready : Instant) (hb : P b.signal) :
    Keeps I (addBit weight b ready) := by
  refine (place_keeps weight).bind ?_
  intro w
  cases w with
  | none => exact .pure _
  | some w => exact .modify fun h hh => hI.put hb hh

lemma addSignalBit_keeps (weight : ℤ) {b : BitRef} (hb : P b.signal) :
    Keeps I (addSignalBit s weight b) :=
  signal_keeps.bind fun _ => .ite (.throw _) (addBit_keeps hI weight _ hb)

lemma addBits_keeps (weight : ℤ) (index count : ℕ) (hid : P id) :
    Keeps I (addBits s weight id index count) := by
  induction count generalizing weight index with
  | zero => exact .pure _
  | succ count ih => exact (addSignalBit_keeps hI weight hid).bind fun _ => ih _ _

lemma addUnsigned_keeps (weight : ℤ) (hid : P id) :
    Keeps I (addUnsigned s id weight) :=
  signal_keeps.bind fun _ => addBits_keeps hI weight _ _ hid

lemma addOne_keeps (weight : ℤ) : Keeps I (addOne weight) := by
  refine (place_keeps weight).bind ?_
  intro w
  cases w with
  | none => exact .pure _
  | some w => exact .modify fun h hh => hI.putOne hh

lemma addOnes_keeps (weight : ℤ) (count : ℕ) : Keeps I (addOnes weight count) := by
  induction count generalizing weight with
  | zero => exact .pure _
  | succ count ih => exact (addOne_keeps hI weight).bind fun _ => ih _

lemma addSignExtension_keeps (weight : ℤ) : Keeps I (addSignExtension weight) :=
  Keeps.get.bind fun _ => addOnes_keeps hI weight _

lemma addSigned_keeps (weight : ℤ) (hid : P id) :
    Keeps I (addSigned s id weight) :=
  signal_keeps.bind fun _ => .ite (.throw _) <|
    (addBits_keeps hI weight _ _ hid).bind fun _ =>
      (addSignalBit_keeps hI _ hid).bind fun _ => addSignExtension_keeps hI _

lemma addSetBits_keeps (n : ℕ) (weight : ℤ) (i count : ℕ) :
    Keeps I (addSetBits n weight i count) := by
  induction count generalizing i with
  | zero => exact .pure _
  | succ count ih =>
    rw [addSetBits]
    exact .ite ((addOne_keeps hI _).bind fun _ => ih _) (ih _)

end Heaping

end Datapath
