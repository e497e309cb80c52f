/-
The sum of a bit heap.

* `Assignment`: values for all signals; `Valuation.Gives`: a valuation has the
  value of an assignment for a signal.
* `BitSource.eval`, `bitsSum`: what bits are worth then.
* `BitSource.On`, `BitHeap.On`: the signals behind bits have a property.
* `BitHeap.total`: the sum of all columns, and `BitHeap.value_eq`: the value of
  a heap is its remainder; `BitHeap.on_of_value`: it needs all signals.
* `BitHeap.total_put`, `BitHeap.total_putOne`: one bit more, one constant more.
-/
import Datapath.BitHeap.Basic
import Datapath.Proofs.Steps
import Datapath.Proofs.Words

namespace Datapath

/-- Values for all signals. -/
abbrev Assignment := SignalId → ℕ

/-- The valuation has a value for the signal. -/
def Valuation.Defined (values : Valuation) (id : SignalId) : Prop := (values id).isSome

/-- The valuation has the value that the assignment has. -/
def Valuation.Gives (values : Valuation) (v : Assignment) (id : SignalId) : Prop :=
  values id = some (v id)

/-- The assignment that a valuation is part of. -/
def Valuation.total (values : Valuation) : Assignment := fun id => (values id).getD 0

lemma Valuation.gives_total {values : Valuation} {id : SignalId} (h : (values id).isSome) :
    values.Gives values.total id := by
  obtain ⟨n, hn⟩ := Option.isSome_iff_exists.mp h
  rw [Gives, total, hn, Option.getD_some]

variable {v v' : Assignment} {P Q : SignalId → Prop} {values : Valuation}

/-! ### Bits -/

namespace BitSource

/-- What a bit is worth. -/
def eval (v : Assignment) : BitSource → ℕ
  | one => 1
  | bit b => b.valueIn (v b.signal)

lemma eval_plain (v : Assignment) (id : SignalId) (i : ℕ) :
    (bit (.plain id i)).eval v = wordBit (v id) i := by
  rw [eval, BitRef.plain, BitRef.valueIn, if_neg Bool.false_ne_true]

/-- The signal behind a bit, if there is one, has a property. -/
def On (P : SignalId → Prop) : BitSource → Prop
  | one => True
  | bit b => P b.signal

lemma On.mono {s : BitSource} (h : s.On P) (hle : ∀ id, P id → Q id) : s.On Q := by
  cases s with
  | one => trivial
  | bit b => exact hle _ h

lemma On.and {s : BitSource} (h : s.On P) (h' : s.On Q) : s.On fun id => P id ∧ Q id := by
  cases s with
  | one => trivial
  | bit b => exact ⟨h, h'⟩

/-- A bit only depends on the signal behind it. -/
lemma eval_congr {s : BitSource} (h : s.On fun id => v id = v' id) : s.eval v = s.eval v' := by
  cases s with
  | one => rfl
  | bit b => rw [eval, eval, show v b.signal = v' b.signal from h]

lemma eval_le_one (v : Assignment) (s : BitSource) : s.eval v ≤ 1 := by
  cases s with
  | one => exact le_rfl
  | bit b =>
    have hbit := wordBit_le_one (v b.signal) b.index
    rw [eval, BitRef.valueIn]
    split_ifs <;> omega

/-- A bit has a value if the signal behind it has one. -/
lemma value_eq {s : BitSource} (h : s.On (values.Gives v)) : s.value values = .ok (s.eval v) := by
  cases s with
  | one => rfl
  | bit b => rw [value, show values b.signal = some (v b.signal) from h]; rfl

/-- A bit only has a value if the signal behind it has one. -/
lemma on_of_value {s : BitSource} {n : ℕ} (h : s.value values = .ok n) : s.On values.Defined := by
  cases s with
  | one => trivial
  | bit b =>
    rw [value] at h
    split at h
    case h_1 v hv => exact Option.isSome_iff_exists.mpr ⟨v, hv⟩
    case h_2 => cases h

end BitSource

/-- The number of ones among some bits. -/
def bitsSum (v : Assignment) (bits : List HeapBit) : ℕ := (bits.map (·.source.eval v)).sum

@[simp] lemma bitsSum_nil (v : Assignment) : bitsSum v [] = 0 := rfl

@[simp] lemma bitsSum_cons (v : Assignment) (b : HeapBit) (bits : List HeapBit) :
    bitsSum v (b :: bits) = b.source.eval v + bitsSum v bits := by
  rw [bitsSum, List.map_cons, List.sum_cons, bitsSum]

@[simp] lemma bitsSum_append (v : Assignment) (bits bits' : List HeapBit) :
    bitsSum v (bits ++ bits') = bitsSum v bits + bitsSum v bits' := by
  rw [bitsSum, List.map_append, List.sum_append, bitsSum, bitsSum]

lemma bitsSum_le_length (v : Assignment) (bits : List HeapBit) : bitsSum v bits ≤ bits.length := by
  induction bits with
  | nil => exact le_rfl
  | cons b bits ih =>
    rw [bitsSum_cons, List.length_cons]
    have hbit := b.source.eval_le_one v
    omega

lemma bitsSum_congr {bits : List HeapBit}
    (h : ∀ b ∈ bits, b.source.On fun id => v id = v' id) : bitsSum v bits = bitsSum v' bits :=
  congrArg List.sum (List.map_congr_left fun b hb => BitSource.eval_congr (h b hb))

lemma countOnes_eq {bits : List HeapBit} (h : ∀ b ∈ bits, b.source.On (values.Gives v)) :
    BitHeap.countOnes values bits = .ok (bitsSum v bits) := by
  induction bits with
  | nil => rfl
  | cons b bits ih =>
    obtain ⟨hb, hbits⟩ := List.forall_mem_cons.mp h
    rw [BitHeap.countOnes, BitSource.value_eq hb, ih hbits, bitsSum_cons]
    rfl

lemma on_of_countOnes {bits : List HeapBit} {n : ℕ}
    (h : BitHeap.countOnes values bits = .ok n) : ∀ b ∈ bits, b.source.On values.Defined := by
  induction bits generalizing n with
  | nil => exact fun b hb => absurd hb List.not_mem_nil
  | cons b bits ih =>
    obtain ⟨v, hv, hrest⟩ := except_bind_eq_ok.mp h
    obtain ⟨m, hm, -⟩ := except_bind_eq_ok.mp hrest
    exact List.forall_mem_cons.mpr ⟨BitSource.on_of_value hv, ih hm⟩

/-! ### Heaps -/

namespace BitHeap

variable {h : BitHeap} {w : ℕ} {b : HeapBit}

/-- The signals behind the bits of a heap have a property. -/
def On (P : SignalId → Prop) (h : BitHeap) : Prop := ∀ w, ∀ b ∈ h.column w, b.source.On P

lemma On.mono (hon : h.On P) (hle : ∀ id, P id → Q id) : h.On Q :=
  fun w b hb => (hon w b hb).mono hle

/-- The sum of column `w`. -/
def columnTotal (h : BitHeap) (v : Assignment) (w : ℕ) : ℕ :=
  h.onesAt w + bitsSum v (h.column w).toList

/-- The sum of all columns, in units of the lowest weight. -/
def total (h : BitHeap) (v : Assignment) : ℕ :=
  ∑ w ∈ Finset.range h.width, h.columnTotal v w * 2 ^ w

lemma total_congr (hon : h.On fun id => v id = v' id) : h.total v = h.total v' := by
  refine Finset.sum_congr rfl ?_
  intro w _
  rw [columnTotal, columnTotal, bitsSum_congr fun b hb => hon w b (Array.mem_toList_iff.mp hb)]

/-- The columns from some column on add up. -/
lemma sumFrom_eq (hon : h.On (values.Gives v)) (w count : ℕ) :
    h.sumFrom values w count =
      .ok (∑ i ∈ Finset.range count, h.columnTotal v (w + i) * 2 ^ (w + i)) := by
  induction count generalizing w with
  | zero => rfl
  | succ count ih =>
    have hcolumn : countOnes values (h.column w).toList = .ok (bitsSum v (h.column w).toList) :=
      countOnes_eq fun b hb => hon w b (Array.mem_toList_iff.mp hb)
    rw [sumFrom, hcolumn, ih, Finset.sum_range_succ', Nat.add_zero, Nat.add_comm (∑ _ ∈ _, _),
      ← Nat.shiftLeft_eq (columnTotal ..)]
    simp only [Nat.add_assoc, Nat.add_comm 1]
    rfl

/-- The value of a heap is its sum, modulo its width. -/
lemma value_eq (hon : h.On (values.Gives v)) (hwidth : h.width ≤ wordBits) :
    h.value values = .ok (h.total v % 2 ^ h.width) := by
  rw [value, if_neg (by omega), sumFrom_eq hon, Nat.one_shiftLeft]
  simp only [Nat.zero_add]
  rfl

lemma on_of_sumFrom {w count n : ℕ} (hsum : h.sumFrom values w count = .ok n) {i : ℕ}
    (hle : w ≤ i) (hlt : i < w + count) : ∀ b ∈ h.column i, b.source.On values.Defined := by
  induction count generalizing w n with
  | zero => exact absurd hlt (Nat.not_lt.mpr hle)
  | succ count ih =>
    obtain ⟨m, hm, hrest⟩ := except_bind_eq_ok.mp hsum
    obtain ⟨k, hk, -⟩ := except_bind_eq_ok.mp hrest
    rcases Nat.eq_or_lt_of_le hle with rfl | hlt'
    · exact fun b hb => on_of_countOnes hm b (Array.mem_toList_iff.mpr hb)
    · exact ih hk hlt' (by omega)

/-- A heap only has a value if all signals behind its bits have one. -/
lemma on_of_value {n : ℕ} (hvalue : h.value values = .ok n) : h.On values.Defined := by
  rw [value] at hvalue
  split_ifs at hvalue
  obtain ⟨k, hk, -⟩ := except_bind_eq_ok.mp hvalue
  intro w b hb
  refine on_of_sumFrom hk (Nat.zero_le w) ?_ b hb
  -- there are no bits above the top column
  by_contra hw
  rw [column, Array.getD, dif_neg (by rw [h.columns_size]; omega)] at hb
  exact absurd hb (Array.not_mem_empty b)

/-- A new heap has no bits and the sum zero. -/
lemma make_eq_ok {width : ℕ} {lsbWeight : ℤ} {overflow : Overflow} {h : BitHeap}
    (made : make width lsbWeight overflow = .ok h) :
    h.width = width ∧ h.lsbWeight = lsbWeight ∧ (∀ v, h.total v = 0) ∧ ∀ P, h.On P := by
  rw [make] at made
  split at made
  · cases made
  · cases made
    refine ⟨rfl, rfl, fun v => Finset.sum_eq_zero fun w hw => ?_, fun P w b hb => ?_⟩
    · simp [columnTotal, onesAt, column, Finset.mem_range.mp hw]
    · by_cases hw : w < width <;> simp [column, hw] at hb

/-- Both heaps have the same columns and the same overflow. -/
structure SameShape (h h' : BitHeap) : Prop where
  width : h'.width = h.width
  lsbWeight : h'.lsbWeight = h.lsbWeight
  overflow : h'.overflow = h.overflow

lemma SameShape.refl (h : BitHeap) : h.SameShape h := ⟨rfl, rfl, rfl⟩

lemma SameShape.trans {h₁ h₂ h₃ : BitHeap} (h : h₁.SameShape h₂) (h' : h₂.SameShape h₃) :
    h₁.SameShape h₃ :=
  ⟨h'.width.trans h.width, h'.lsbWeight.trans h.lsbWeight, h'.overflow.trans h.overflow⟩

lemma SameShape.symm {h h' : BitHeap} (hshape : h.SameShape h') : h'.SameShape h :=
  ⟨hshape.width.symm, hshape.lsbWeight.symm, hshape.overflow.symm⟩

/-! ### One bit more -/

lemma column_put_self (hw : w < h.width) : (h.put w b).column w = (h.column w).push b := by
  have hsize : w < h.columns.size := by rwa [h.columns_size]
  simp [column, put, Array.getElem_modify, hsize]

lemma column_put_of_ne {w' : ℕ} (hne : w ≠ w') : (h.put w b).column w' = h.column w' := by
  simp [column, put, Array.getElem?_modify, hne]

/-- Every bit of the heap with one more bit is that bit or was there before. -/
lemma mem_column_put {w' : ℕ} {b' : HeapBit} (hmem : b' ∈ (h.put w b).column w') :
    b' ∈ h.column w' ∨ b' = b := by
  by_cases hne : w = w'
  · subst hne
    by_cases hw : w < h.width
    · rw [column_put_self hw, Array.mem_push] at hmem
      exact hmem
    · have hsize : ¬ w < h.columns.size := by rwa [h.columns_size]
      simp [column, put, hsize] at hmem
  · rw [column_put_of_ne hne] at hmem
    exact .inl hmem

lemma onesAt_put (w' : ℕ) : (h.put w b).onesAt w' = h.onesAt w' := rfl

/-- One bit more adds its weight. -/
lemma total_put (hw : w < h.width) (v : Assignment) :
    (h.put w b).total v = h.total v + b.source.eval v * 2 ^ w := by
  have hmem := Finset.mem_range.mpr hw
  rw [total, total, show (h.put w b).width = h.width from rfl,
    ← Finset.add_sum_erase _ _ hmem, ← Finset.add_sum_erase _ (fun i => _) hmem]
  have hrest : ∀ i ∈ (Finset.range h.width).erase w,
      (h.put w b).columnTotal v i * 2 ^ i = h.columnTotal v i * 2 ^ i := by
    intro i hi
    rw [columnTotal, columnTotal, onesAt_put, column_put_of_ne (Finset.ne_of_mem_erase hi).symm]
  rw [Finset.sum_congr rfl hrest, columnTotal, columnTotal, onesAt_put, column_put_self hw,
    Array.toList_push, bitsSum_append, bitsSum_cons, bitsSum_nil]
  ring

lemma column_putOne (w' : ℕ) : (h.putOne w).column w' = h.column w' := rfl

lemma onesAt_putOne (hw : w < h.width) (w' : ℕ) :
    (h.putOne w).onesAt w' = h.onesAt w' + if w = w' then 1 else 0 := by
  have hsize : w < h.ones.size := by rwa [h.ones_size]
  by_cases hne : w = w'
  · subst hne
    simp [onesAt, putOne, Array.getElem_modify, hsize]
  · simp [onesAt, putOne, Array.getElem?_modify, hne]

/-- One constant more adds its weight. -/
lemma total_putOne (hw : w < h.width) (v : Assignment) :
    (h.putOne w).total v = h.total v + 2 ^ w := by
  have hcolumn : ∀ i, (h.putOne w).columnTotal v i * 2 ^ i =
      h.columnTotal v i * 2 ^ i + if w = i then 2 ^ i else 0 := by
    intro i
    rw [columnTotal, columnTotal, onesAt_putOne hw, column_putOne]
    split_ifs <;> ring
  rw [total, total, show (h.putOne w).width = h.width from rfl]
  simp only [hcolumn, Finset.sum_add_distrib, Finset.sum_ite_eq, Finset.mem_range, if_pos hw]

end BitHeap

end Datapath
