/-
Products made of small tables.

* `Side.sum_pieces`: what is additive along a side is the sum over its pieces;
  `Side.sum_numbers` is the same for the number on a side, whose sign is in the
  last piece.
* `addCell_adds`: the table for two pieces adds the product of the numbers in
  them. The bits that only padding makes are not needed for it.
* `addTables_adds`: the tables of a rectangle add the product of its sides.
-/
import Datapath.Product.Tables
import Datapath.Proofs.Product.Rows
import Datapath.Proofs.Tiling.Geometry
import Mathlib.Algebra.BigOperators.Group.List.Basic

namespace Datapath

/-! ### Numbers in pieces -/

/-- Two chunks side by side. -/
lemma chunk_append (a lo k w : ℕ) :
    chunk a lo (k + w) = chunk a lo k + chunk a (lo + k) w * 2 ^ k := by
  rw [chunk, chunk, chunk, pow_add 2 lo, ← Nat.div_div_eq_div_mul, pow_add, Nat.mod_mul,
    Nat.mul_comm (2 ^ k)]

/-- The low digits of a number with a sign count as they are. -/
lemma signedValue_append {k w low high : ℕ} (hlow : low < 2 ^ k) (hw : 0 < w)
    (hword : k + w ≤ wordBits) :
    signedValue (k + w) (low + high * 2 ^ k) = low + signedValue w high * 2 ^ k := by
  have hw' : w ≤ wordBits := (Nat.le_add_left w k).trans hword
  obtain ⟨-, hge, hlt⟩ := fits_signedValue hw hw' high
  have hscale : (0 : ℤ) ≤ 2 ^ k := by positivity
  have hlow' : (low : ℤ) < 2 ^ k := by exact_mod_cast hlow
  have hpow : (2 : ℤ) ^ (k + w) = 2 ^ (w - 1) * 2 ^ k * 2 := by
    rw [pow_add, two_pow_pred hw]
    ring
  have habove : -2 ^ (w - 1) * 2 ^ k ≤ signedValue w high * 2 ^ k :=
    mul_le_mul_of_nonneg_right hge hscale
  have hbelow : (signedValue w high + 1) * 2 ^ k ≤ 2 ^ (w - 1) * 2 ^ k :=
    mul_le_mul_of_nonneg_right (Int.add_one_le_of_lt hlt) hscale
  rw [neg_mul] at habove
  rw [add_mul, one_mul] at hbelow
  have hmod : (signedValue w high : ℤ) ≡ high [ZMOD 2 ^ w] := by
    rw [signedValue_eq hw']
    exact_mod_cast (Int.bmod_emod (x := high) (m := 2 ^ w))
  refine signedValue_of_modEq hword ?_ ?_ ?_
  · rw [pow_add, mul_comm ((2 : ℤ) ^ k)]
    push_cast
    exact (hmod.symm.mul_right' (c := 2 ^ k)).add_left _
  · rw [hpow]
    exact mul_le_mul_of_nonneg_right (abs_le.mpr ⟨by omega, by omega⟩) (by norm_num)
  · rw [hpow]
    omega

lemma chunkNumber_zero (signed : Bool) (a lo : ℕ) : chunkNumber signed a lo 0 = 0 := by
  cases signed <;>
    simp [chunkNumber, ProductTable.operand, chunk, Nat.mod_one]

lemma chunkNumber_append (signed : Bool) (a lo : ℕ) {k w : ℕ} (hw : 0 < w)
    (hword : k + w ≤ wordBits) :
    chunkNumber signed a lo (k + w) =
      chunk a lo k + chunkNumber signed a (lo + k) w * 2 ^ k := by
  rw [chunkNumber, chunk_append]
  cases signed with
  | true =>
    rw [ProductTable.operand, chunkNumber, ProductTable.operand, if_pos rfl, if_pos rfl]
    exact signedValue_append (chunk_lt _ _ _) hw hword
  | false =>
    change ((_ : ℕ) : ℤ) = _ + ((_ : ℕ) : ℤ) * _
    push_cast
    rfl

namespace Side

variable {s : Side} {i k : ℕ}

/-! ### Pieces of a side -/

/-- The number on a side. -/
def number (s : Side) (a : ℕ) : ℤ := chunkNumber s.signed a s.lo s.length

lemma le_mul_count (hsize : 0 < s.size) : s.length ≤ s.size * s.count := by
  have hdiv := Nat.div_add_mod (s.length + s.size - 1) s.size
  have hmod := Nat.mod_lt (s.length + s.size - 1) hsize
  rw [count, ceilDiv]
  omega

/-- Every piece starts within the side. -/
lemma mul_lt_length (hi : i < s.count) : s.size * i < s.length := by
  rw [count, ceilDiv] at hi
  have hsize : 0 < s.size := Nat.pos_of_ne_zero fun h => by simp [h] at hi
  have hle := (Nat.le_div_iff_mul_le hsize).mp (Nat.succ_le_of_lt hi)
  rw [Nat.succ_mul, Nat.mul_comm] at hle
  omega

lemma field_lo (s : Side) (i : ℕ) : (s.field i).lo = s.lo + s.size * i := by
  rw [field, Nat.mul_comm]

lemma field_width (s : Side) (i : ℕ) : (s.field i).width = min s.size (s.length - s.size * i) := by
  rw [field, Nat.mul_comm]

/-- Every piece ends within the side. -/
lemma field_end_le (hi : i < s.count) : (s.field i).lo + (s.field i).width ≤ s.lo + s.length := by
  have hlt := mul_lt_length hi
  rw [field_lo, field_width]
  omega

lemma field_width_pos (hsize : 0 < s.size) (hi : i < s.count) : 0 < (s.field i).width := by
  have hlt := mul_lt_length hi
  rw [field_width]
  omega

/-- All pieces but the last one have full size. -/
lemma field_width_of_lt (hi : i + 1 < s.count) : (s.field i).width = s.size := by
  have hlt := mul_lt_length hi
  rw [Nat.mul_add_one] at hlt
  rw [field_width]
  omega

/-- A piece is padded to full size. -/
lemma field_width_add_padding (hsize : 0 < s.size) (hi : i < s.count) :
    (s.field i).width + s.padding i = s.size := by
  have hall := le_mul_count hsize
  rw [padding, isLast]
  rcases Nat.lt_or_ge (i + 1) s.count with hmore | hlast
  · rw [if_neg (by simpa using hmore.ne), field_width_of_lt hmore, Nat.add_zero]
  · have hcount : i + 1 = s.count := by omega
    have hlt := mul_lt_length hi
    rw [← hcount, Nat.mul_add_one] at hall
    rw [if_pos (by simpa using hcount), field_width, ← hcount, Nat.mul_add_one]
    omega

/-- What is additive along a side is the sum over its pieces. -/
lemma sum_pieces {M : Type} [AddCommMonoid M] {F : ℕ → ℕ → M} (hzero : ∀ lo, F lo 0 = 0)
    (hadd : ∀ lo k w, F lo (k + w) = F lo k + F (lo + k) w) (hsize : 0 < s.size) :
    ∑ i ∈ Finset.range s.count, F (s.field i).lo (s.field i).width = F s.lo s.length := by
  have hpart : ∀ k ≤ s.count, ∑ i ∈ Finset.range k, F (s.field i).lo (s.field i).width =
      F s.lo (min (s.size * k) s.length) := by
    intro k hk
    induction k with
    | zero => rw [Finset.sum_range_zero, Nat.mul_zero, Nat.zero_min, hzero]
    | succ k ih =>
      have hlt := mul_lt_length hk
      rw [Finset.sum_range_succ, ih (by omega), field_lo, field_width, Nat.min_eq_left hlt.le,
        ← hadd, Nat.mul_add_one]
      congr 1
      omega
  rw [hpart _ le_rfl, Nat.min_eq_right (le_mul_count hsize)]

/-- The number on a side is the sum of the numbers in its pieces. -/
lemma sum_numbers (a : ℕ) (hsize : 0 < s.size) (hlength : 0 < s.length)
    (hword : s.length ≤ wordBits) :
    ∑ i ∈ Finset.range s.count, (s.field i).number a * 2 ^ (s.size * i) = s.number a := by
  have hall := le_mul_count hsize
  obtain ⟨m, hm⟩ : ∃ m, s.count = m + 1 :=
    Nat.exists_eq_add_one.mpr (Nat.pos_of_ne_zero fun h => by rw [h] at hall; omega)
  have hlt : s.size * m < s.length := mul_lt_length (by omega)
  -- the pieces below the last one have no sign
  have hlow : ∀ k ≤ m, ∑ i ∈ Finset.range k, (s.field i).number a * 2 ^ (s.size * i) =
      chunk a s.lo (s.size * k) := by
    intro k hk
    induction k with
    | zero => rw [Finset.sum_range_zero, Nat.mul_zero, chunk, pow_zero, Nat.mod_one, Nat.cast_zero]
    | succ k ih =>
      have hplain : (s.field k).signExtend = false := by
        rw [field, isLast, beq_false_of_ne (by omega), Bool.and_false]
      rw [Finset.sum_range_succ, ih (by omega), OperandField.number, hplain,
        field_width_of_lt (by omega), field_lo, Nat.mul_add_one, chunk_append]
      push_cast
      rfl
  have hlast : (s.field m).signExtend = s.signed := by
    rw [field, isLast, hm, beq_self_eq_true, Bool.and_true]
  have hwidth : (s.field m).width = s.length - s.size * m := by
    rw [field_width, Nat.min_eq_right]
    rw [hm, Nat.mul_add_one] at hall
    omega
  have happend := chunkNumber_append s.signed a s.lo (k := s.size * m)
    (w := s.length - s.size * m) (by omega) (by omega)
  rw [Nat.add_sub_cancel' hlt.le] at happend
  rw [hm, Finset.sum_range_succ, hlow m le_rfl, OperandField.number, hlast, hwidth, field_lo,
    number, happend]

end Side

namespace Site

variable {s : Site} {c c' : Contribution} {a b : ℕ}

/-! ### One table -/

/-- The table for piece `i` of one side and piece `j` of the other. -/
structure IsCell (sx sy : Side) (i j : ℕ) (cell : TableCell) : Prop where
  column : cell.column = i
  row : cell.row = j
  table : cell.table =
    ⟨sx.size, sy.size, sx.size + sy.size, (sx.field i).signExtend, (sy.field j).signExtend⟩
  x : cell.x = sx.field i
  y : cell.y = sy.field j
  bits : cell.bits = sx.size + sy.size - sx.padding i - sy.padding j
  posX : 0 < sx.size
  posY : 0 < sy.size
  small : sx.size + sy.size ≤ ProductTable.maxInput

lemma prepareCell_ok {tag : String} {sx sy : Side} {i j : ℕ} {b b' : Builder} {cell : TableCell}
    (h : prepareCell tag sx sy i j b = .ok cell b') : b ≤ b' ∧ IsCell sx sy i j cell := by
  obtain ⟨t, b₁, hmake, hrest⟩ := bind_eq_ok.mp h
  obtain ⟨ht, rfl⟩ := ofExcept_eq_ok.mp hmake
  obtain ⟨input, b₂, hdeclare, hpure⟩ := bind_eq_ok.mp hrest
  obtain ⟨rfl, rfl⟩ := pure_eq_ok.mp hpure
  have hsmall := (ProductTable.small_of_make (.inr le_rfl) ht).2
  obtain ⟨ht, hposx, hposy, -⟩ := ProductTable.make_eq_ok ht
  exact ⟨Build.declare_rising _ _ hdeclare, rfl, rfl, ht, rfl, rfl, rfl, hposx, hposy, hsmall⟩

lemma prepareCells_ok {tag : String} {sx sy : Side} {pairs : List (ℕ × ℕ)} {b b' : Builder}
    {cells : List TableCell} (h : prepareCells tag sx sy pairs b = .ok cells b') :
    b ≤ b' ∧ List.Forall₂ (fun p => IsCell sx sy p.1 p.2) pairs cells := by
  induction pairs generalizing b cells with
  | nil =>
    obtain ⟨rfl, rfl⟩ := pure_eq_ok.mp h
    exact ⟨le_refl b, .nil⟩
  | cons p pairs ih =>
    obtain ⟨cell, b₁, hcell, hrest⟩ := bind_eq_ok.mp h
    obtain ⟨cells', b₂, hcells, hpure⟩ := bind_eq_ok.mp hrest
    obtain ⟨rfl, rfl⟩ := pure_eq_ok.mp hpure
    obtain ⟨hle, hfirst⟩ := prepareCell_ok hcell
    obtain ⟨hle', hothers⟩ := ih hcells
    exact ⟨hle.trans hle', .cons hfirst hothers⟩

/-- The rectangle of the product that two pieces make. -/
def cellRect (sx sy : Side) (i j : ℕ) : Tiling.Rect :=
  ⟨(sx.field i).lo, (sy.field j).lo, (sx.field i).width, (sy.field j).width⟩

namespace IsCell

variable {sx sy : Side} {i j : ℕ} {cell : TableCell}

lemma word (hcell : IsCell sx sy i j cell) : sx.size + sy.size ≤ wordBits :=
  hcell.small.trans (by decide)

/-- The bits that count are those of both pieces. -/
lemma bits_eq (hcell : IsCell sx sy i j cell) (hi : i < sx.count) (hj : j < sy.count) :
    cell.bits = (sx.field i).width + (sy.field j).width := by
  have hwx := Side.field_width_add_padding hcell.posX hi
  have hwy := Side.field_width_add_padding hcell.posY hj
  rw [hcell.bits]
  omega

/-- The bits of an entry that count are worth the product of the numbers in
two pieces. -/
lemma digitValue_eq (hcell : IsCell sx sy i j cell) (ha : a < 2 ^ wordBits)
    (hb : b < 2 ^ wordBits) (hi : i < sx.count) (hj : j < sy.count) :
    digitValue ((sx.field i).signExtend || (sy.field j).signExtend)
        ((sx.field i).width + (sy.field j).width)
        ((PartialProduct.table cell.table cell.x cell.y).value a b) =
      (sx.field i).number a * (sy.field j).number b := by
  have hword := hcell.word
  have hpx := Side.field_width_pos hcell.posX hi
  have hpy := Side.field_width_pos hcell.posY hj
  have hwx := Side.field_width_add_padding hcell.posX hi
  have hwy := Side.field_width_add_padding hcell.posY hj
  obtain ⟨hltx, hnx⟩ := (sx.field i).operand_value ha hpx (by change _ ≤ sx.size; omega)
    (by change sx.size ≤ _; omega)
  obtain ⟨hlty, hny⟩ := (sy.field j).operand_value hb hpy (by change _ ≤ sy.size; omega)
    (by change sy.size ≤ _; omega)
  -- the table holds the product modulo more than its bits that count
  have hvalue := PartialProduct.table_modEq (t := ⟨sx.size, sy.size, sx.size + sy.size,
    (sx.field i).signExtend, (sy.field j).signExtend⟩) rfl hcell.small hltx hlty
  change ((PartialProduct.table _ _ _).value a b : ℤ) ≡
    ProductTable.operand _ (sx.field i).padded _ * ProductTable.operand _ (sy.field j).padded _
    [ZMOD 2 ^ (sx.size + sy.size)] at hvalue
  rw [hnx, hny] at hvalue
  rw [hcell.table, hcell.x, hcell.y]
  exact digitValue_mul ((sx.field i).number_fits (fun _ => hpx) (by omega))
    ((sy.field j).number_fits (fun _ => hpy) (by omega)) (by omega)
    (hvalue.of_dvd (pow_dvd_pow 2 (by omega)))

end IsCell

/-- The output of a table is a new signal. -/
lemma cell_emits {input out : SignalId} {name table label : String} {width : ℕ}
    {bld bld' : Builder}
    (h : (do
      let use ← Build.read input
      let out ← Build.declare name width
      let _ ← Build.instantiate table label [.signal "X" use]
      return out : Build SignalId) bld = .ok out bld') : bld.Emits bld' out width := by
  obtain ⟨_, b₁, hread, h⟩ := bind_eq_ok.mp h
  obtain ⟨_, b₂, hdeclare, h⟩ := bind_eq_ok.mp h
  obtain ⟨_, b₃, hinstance, h⟩ := bind_eq_ok.mp h
  obtain ⟨rfl, rfl⟩ := pure_eq_ok.mp h
  exact ((Builder.Emits.of_declare hdeclare).after (Build.read_rising _ hread)).followed
    (Build.instantiate_rising _ _ _ hinstance)

/-- A table adds the product of the numbers in two pieces. -/
lemma addCell_adds {tag : String} {sx sy : Side} {i j : ℕ} {cell : TableCell}
    (hsound : c.Sound) (ha : a < 2 ^ wordBits) (hb : b < 2 ^ wordBits)
    (hcell : IsCell sx sy i j cell) (hi : i < sx.count) (hj : j < sy.count)
    (hsigned : s.signed = false → sx.signed = false ∧ sy.signed = false)
    (hx : sx.lo + sx.length ≤ s.wx) (hy : sy.lo + sy.length ≤ s.wy)
    (h : s.addCell tag (sx.lo + sy.lo) cell c = .ok () c') :
    s.Adds c c' a b
      ((sx.field i).number a * (sy.field j).number b *
        2 ^ (sx.lo + sx.size * i + (sy.lo + sy.size * j)))
      ((cellRect sx sy i j).lowSum (s.cut c.heap)) := by
  obtain ⟨out, c₁, hbuild, hrest⟩ := bind_eq_ok.mp h
  obtain ⟨_, c₂, hrecord, hbits⟩ := bind_eq_ok.mp hrest
  obtain ⟨hemit, -, hp⟩ := Adds.emit (s := s) (x := a) (y := b) hsound hbuild hrecord
    fun _ => cell_emits
  have hword := hcell.word
  have hpx := Side.field_width_pos hcell.posX hi
  have hpy := Side.field_width_pos hcell.posY hj
  have hwx := Side.field_width_add_padding hcell.posX hi
  have hwy := Side.field_width_add_padding hcell.posY hj
  have hfx := (sx.field i).number_fits (a := a) (fun _ => hpx) (by omega)
  have hfy := (sy.field j).number_fits (a := b) (fun _ => hpy) (by omega)
  have hex := Side.field_end_le hi
  have hey := Side.field_end_le hj
  rw [hcell.x, hcell.y, hcell.table, hcell.column, hcell.row, hcell.bits_eq hi hj] at hbits
  have hput := Adds.put_top (r := cellRect sx sy i j) (x := a) (y := b) hemit.sound hbits hp
    (by simp only [cellRect, Side.field_lo]; ring) ?_ (fun hs => ?_) (by omega)
    (hcell.digitValue_eq ha hb hi hj) (hfx.abs_mul_le hfy) (Nat.le_succ _)
    (.inl ⟨hpx, hpy, le_rfl⟩) fun hs => ?_
  · convert hemit.trans hput using 1
    · rw [zero_add]
      congr 2
      ring
    · rw [Nat.zero_add, cut_of_sameShape hemit.shape]
  · rw [Side.field_lo] at hex hey
    dsimp only
    rw [Nat.mul_comm i, Nat.mul_comm j]
    omega
  · obtain ⟨hsx, hsy⟩ := hsigned hs
    simp only [Side.field, hsx, hsy, Bool.false_and, Bool.or_self]
  · obtain ⟨hsx, hsy⟩ := hsigned hs
    exact mul_nonneg (hfx.nonneg (by rw [Side.field, hsx, Bool.false_and]))
      (hfy.nonneg (by rw [Side.field, hsy, Bool.false_and]))

/-! ### The tables of a rectangle -/

lemma defineTable_rising (t : Target) (table : ProductTable) : Rising (defineTable t table) :=
  (Build.ofExcept_rising _).bind fun _ => Build.addSubcomponent_rising _

/-- Tables for pairs of pieces add the products of them all. -/
lemma addCells_adds {tag : String} {sx sy : Side} {pairs : List (ℕ × ℕ)} {cells : List TableCell}
    {defined : List ProductTable} (hsound : c.Sound) (ha : a < 2 ^ wordBits)
    (hb : b < 2 ^ wordBits) (hcells : List.Forall₂ (fun p => IsCell sx sy p.1 p.2) pairs cells)
    (hpairs : ∀ p ∈ pairs, p.1 < sx.count ∧ p.2 < sy.count)
    (hsigned : s.signed = false → sx.signed = false ∧ sy.signed = false)
    (hx : sx.lo + sx.length ≤ s.wx) (hy : sy.lo + sy.length ≤ s.wy)
    (h : s.addCells tag (sx.lo + sy.lo) defined cells c = .ok () c') :
    s.Adds c c' a b
      (pairs.map fun p => (sx.field p.1).number a * (sy.field p.2).number b *
        2 ^ (sx.lo + sx.size * p.1 + (sy.lo + sy.size * p.2))).sum
      (pairs.map fun p => (cellRect sx sy p.1 p.2).lowSum (s.cut c.heap)).sum := by
  induction hcells generalizing c defined with
  | nil =>
    obtain ⟨-, rfl⟩ := pure_eq_ok.mp h
    exact .none hsound
  | @cons p cell pairs cells hcell hcells ih =>
    obtain ⟨hp, hpairs⟩ := List.forall_mem_cons.mp hpairs
    have hadd : ∀ c₁, s.Adds c c₁ a b 0 0 → (do
        s.addCell tag (sx.lo + sy.lo) cell
        s.addCells tag (sx.lo + sy.lo) (defined.insert cell.table) cells : Contributing Unit) c₁ =
          .ok () c' → s.Adds c c' a b _ _ := fun c₁ hstart hrest => by
      obtain ⟨_, c₂, hcell', hcells'⟩ := bind_eq_ok.mp hrest
      have hfirst := addCell_adds hstart.sound ha hb hcell hp.1 hp.2 hsigned hx hy hcell'
      have hothers := ih hfirst.sound hpairs hcells'
      rw [cut_of_sameShape (hstart.shape.trans hfirst.shape)] at hothers
      rw [cut_of_sameShape hstart.shape] at hfirst
      have hall := hstart.trans (hfirst.trans hothers)
      rwa [zero_add, Nat.zero_add, ← List.sum_cons, ← List.sum_cons] at hall
    rw [addCells] at h
    split_ifs at h with hold
    · exact hadd c (.none hsound) h
    · obtain ⟨_, c₁, hdefine, hrest⟩ := bind_eq_ok.mp h
      exact hadd c₁ (.build hsound (defineTable_rising _ _) hdefine) hrest

lemma mem_pairs {m n : ℕ} {p : ℕ × ℕ} :
    p ∈ ((List.range n).flatMap fun j => (List.range m).map fun i => (i, j)) ↔
      p.1 < m ∧ p.2 < n := by
  obtain ⟨i, j⟩ := p
  simp [and_comm]

/-- What pairs of pieces give, row by row. -/
lemma sum_pairs {M : Type} [AddCommMonoid M] (f : ℕ × ℕ → M) (m n : ℕ) :
    (((List.range n).flatMap fun j => (List.range m).map fun i => (i, j)).map f).sum =
      ∑ j ∈ Finset.range n, ∑ i ∈ Finset.range m, f (i, j) := by
  induction n with
  | zero => rfl
  | succ n ih =>
    rw [List.range_succ, List.flatMap_append, List.map_append, List.sum_append, ih,
      Finset.sum_range_succ, List.flatMap_singleton, List.map_map]
    rfl

/-- The pieces of two sides cover their rectangle, below any column. -/
lemma sum_lowSum {sx sy : Side} (hsx : 0 < sx.size) (hsy : 0 < sy.size) (t : ℕ) :
    ∑ j ∈ Finset.range sy.count, ∑ i ∈ Finset.range sx.count, (cellRect sx sy i j).lowSum t =
      (Tiling.Rect.mk sx.lo sy.lo sx.length sy.length).lowSum t := by
  have hrow : ∀ j, ∑ i ∈ Finset.range sx.count, (cellRect sx sy i j).lowSum t =
      (Tiling.Rect.mk sx.lo (sy.field j).lo sx.length (sy.field j).width).lowSum t := fun j =>
    Side.sum_pieces (F := fun lo w => (Tiling.Rect.mk lo (sy.field j).lo w _).lowSum t)
      (fun lo => Tiling.Rect.lowSum_of_area (Nat.zero_mul _) t)
      (fun lo k w => Tiling.Rect.lowSum_add_width _ _ _ _ _ _) hsx
  rw [Finset.sum_congr rfl fun j _ => hrow j]
  exact Side.sum_pieces (F := fun lo w => (Tiling.Rect.mk sx.lo lo sx.length w).lowSum t)
    (fun lo => Tiling.Rect.lowSum_of_area (Nat.mul_zero _) t)
    (fun lo k w => Tiling.Rect.lowSum_add_height _ _ _ _ _ _) hsy

/-- The numbers in the pieces of two sides multiply like those on the sides. -/
lemma sum_products {sx sy : Side} (hsx : 0 < sx.size) (hsy : 0 < sy.size) (hlx : 0 < sx.length)
    (hly : 0 < sy.length) (hwx : sx.length ≤ wordBits) (hwy : sy.length ≤ wordBits) :
    ∑ j ∈ Finset.range sy.count, ∑ i ∈ Finset.range sx.count,
        (sx.field i).number a * (sy.field j).number b *
          2 ^ (sx.lo + sx.size * i + (sy.lo + sy.size * j)) =
      sx.number a * sy.number b * 2 ^ (sx.lo + sy.lo) := by
  rw [← Side.sum_numbers a hsx hlx hwx, ← Side.sum_numbers b hsy hly hwy, Finset.sum_mul_sum,
    Finset.sum_comm, Finset.sum_mul]
  refine Finset.sum_congr rfl ?_
  intro i _
  rw [Finset.sum_mul]
  exact Finset.sum_congr rfl fun j _ => by rw [pow_add, pow_add, pow_add, pow_add]; ring

lemma tableFields_pos (t : Target) : 0 < (tableFields t).1 ∧ 0 < (tableFields t).2 := by
  rw [tableFields]
  dsimp only
  omega

/-- The tables of a rectangle of the product add the product of its sides. -/
theorem addTables_adds {r : Tiling.Rect} (hsound : c.Sound) (ho : s.Operands a b)
    (hr : r.Within ⟨s.wx, s.wy⟩) (h : s.addTables r c = .ok () c') :
    s.Adds c c' a b
      (chunkNumber s.signed a r.x r.width * chunkNumber s.signed b r.y r.height * 2 ^ (r.x + r.y))
      (r.lowSum (s.cut c.heap)) := by
  obtain ⟨ha, hb⟩ := ho.ltWord
  obtain ⟨hright, htop⟩ : r.x + r.width ≤ s.wx ∧ r.y + r.height ≤ s.wy := hr
  have hword := ho.word
  rw [addTables] at h
  split_ifs at h with harea
  · obtain ⟨-, rfl⟩ := pure_eq_ok.mp h
    rw [Tiling.Rect.lowSum_of_area harea]
    convert Adds.none (s := s) (x := a) (y := b) hsound using 1
    rcases Nat.mul_eq_zero.mp harea with hzero | hzero
    · rw [hzero, chunkNumber_zero, zero_mul, zero_mul]
    · rw [hzero, chunkNumber_zero, mul_zero, zero_mul]
  · obtain ⟨n, c₁, hid, hrest⟩ := bind_eq_ok.mp h
    obtain ⟨cells, c₂, hprepare, hadd⟩ := bind_eq_ok.mp hrest
    obtain ⟨hdx, hdy⟩ := tableFields_pos s.target
    obtain ⟨hw, hh⟩ := not_or.mp (Nat.mul_eq_zero.not.mp harea)
    obtain ⟨b₂, hsteps, rfl⟩ := Contributing.build_eq_ok.mp hprepare
    obtain ⟨_, b₃, hread, hsteps⟩ := bind_eq_ok.mp hsteps
    obtain ⟨cells', b₄, hcells, hsteps⟩ := bind_eq_ok.mp hsteps
    obtain ⟨_, b₅, hadvance, hsteps⟩ := bind_eq_ok.mp hsteps
    obtain ⟨rfl, rfl⟩ := pure_eq_ok.mp hsteps
    obtain ⟨hle, hcells⟩ := prepareCells_ok hcells
    have hstart := Adds.build (s := s) (x := a) (y := b) hsound Build.uniqueId_rising hid
    have hready := Adds.of_builder (s := s) (x := a) (y := b) hstart.sound
      ((s.readOperands_rising hread).trans (hle.trans (Build.advance_rising _ _ hadvance)))
    have hall := addCells_adds (a := a) (b := b) hready.sound ha hb hcells
      (fun _ hp => mem_pairs.mp hp) (fun hs => ⟨hs, hs⟩) hright htop hadd
    rw [sum_pairs, sum_pairs, sum_lowSum hdx hdy, sum_products hdx hdy (Nat.pos_of_ne_zero hw)
      (Nat.pos_of_ne_zero hh) (by dsimp only; omega) (by dsimp only; omega)] at hall
    convert hstart.trans (hready.trans hall) using 1
    · rw [zero_add, zero_add]
      rfl
    · rw [Nat.zero_add, Nat.zero_add, cut_of_sameShape hstart.shape]

end Site

end Datapath
