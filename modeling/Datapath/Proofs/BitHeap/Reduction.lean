/-
What compressors do to the columns of a heap.

* `weigh`: the sum of columns, from the lowest one up.
* `weigh_settled`: settled columns hold the constants of the heap.
* `Compressed.Counts`, `Compresses`, `Reduces`, `Rounds`: compressors over some
  bits, over one column, over all columns and in rounds.
* `Rounds.weigh_modEq`: no round changes the sum of the columns modulo the
  width, if the outputs of the compressors count their inputs.
* `Reduces.fewer`: every round over a column of more than two bits leaves fewer
  bits.
-/
import Datapath.BitHeap.Compress
import Datapath.Proofs.BitHeap.Total

namespace Datapath

variable {v : Assignment} {P : SignalId → Prop}

/-! ### Columns -/

/-- The sum of columns, each of which counts twice the one before. -/
def weigh (v : Assignment) : List (List HeapBit) → ℕ
  | [] => 0
  | column :: columns => bitsSum v column + 2 * weigh v columns

/-- The sum of columns and constants, each column counting twice the one
before. -/
def weighOnes (v : Assignment) : List (List HeapBit × ℕ) → ℕ
  | [] => 0
  | (bits, ones) :: columns => bitsSum v bits + ones + 2 * weighOnes v columns

/-- Settling constants changes the sum by no more than what leaves the top
column. -/
lemma weigh_settleOnes (v : Assignment) (w carry : ℕ) (columns : List (List HeapBit × ℕ)) :
    weigh v (settleOnes w carry columns) ≡ carry + weighOnes v columns
      [MOD 2 ^ columns.length] := by
  induction columns generalizing w carry with
  | nil => exact Nat.modEq_one
  | cons column columns ih =>
    obtain ⟨bits, ones⟩ := column
    have hrest := (ih (w + 1) ((ones + carry) / 2)).mul_left' 2
    have hkept : bitsSum v (if (ones + carry) % 2 = 1 then bits ++ [.constantOne w] else bits) =
        bitsSum v bits + (ones + carry) % 2 := by
      split_ifs with hodd
      · rw [bitsSum_append, bitsSum_cons, bitsSum_nil, hodd]
        rfl
      · omega
    rw [settleOnes, weigh, hkept, weighOnes, List.length_cons, pow_succ']
    calc bitsSum v bits + (ones + carry) % 2 + 2 * weigh v (settleOnes (w + 1) _ columns)
        ≡ bitsSum v bits + (ones + carry) % 2 + 2 * ((ones + carry) / 2 + weighOnes v columns)
          [MOD 2 * 2 ^ columns.length] := hrest.add_left _
      _ = carry + (bitsSum v bits + ones + 2 * weighOnes v columns) := by omega

/-- Columns from column `w` on, as a sum over their weights. -/
lemma weighOnes_range' (h : BitHeap) (v : Assignment) (w count : ℕ) :
    weighOnes v ((List.range' w count).map fun i => ((h.column i).toList, h.onesAt i)) =
      ∑ i ∈ Finset.range count, h.columnTotal v (w + i) * 2 ^ i := by
  induction count generalizing w with
  | zero => rfl
  | succ count ih =>
    rw [List.range'_succ, List.map_cons, weighOnes, ih,
      sum_digits_succ fun i => h.columnTotal v (w + i), BitHeap.columnTotal,
      Nat.add_comm (bitsSum ..)]
    simp only [Nat.add_zero, Nat.add_assoc, Nat.add_comm 1]

lemma length_settleOnes (w carry : ℕ) (columns : List (List HeapBit × ℕ)) :
    (settleOnes w carry columns).length = columns.length := by
  induction columns generalizing w carry with
  | nil => rfl
  | cons column columns ih => rw [settleOnes, List.length_cons, ih, List.length_cons]

lemma BitHeap.length_settled (h : BitHeap) : h.settled.length = h.width := by
  rw [settled, length_settleOnes, List.length_map, List.length_range]

/-- The settled columns have the sum of the heap, modulo its width. -/
lemma BitHeap.weigh_settled (h : BitHeap) (v : Assignment) :
    weigh v h.settled ≡ h.total v [MOD 2 ^ h.width] := by
  have hsettle := weigh_settleOnes v 0 0
    ((List.range h.width).map fun w => ((h.column w).toList, h.onesAt w))
  rw [List.length_map, List.length_range, List.range_eq_range', weighOnes_range',
    Nat.zero_add, ← List.range_eq_range'] at hsettle
  simp only [Nat.zero_add] at hsettle
  exact hsettle

/-- All bits of some columns come from signals with a property. -/
def ColumnsOn (P : SignalId → Prop) (columns : List (List HeapBit)) : Prop :=
  ∀ column ∈ columns, ∀ b ∈ column, b.source.On P

lemma settleOnes_on (w carry : ℕ) (columns : List (List HeapBit × ℕ))
    (hon : ∀ column ∈ columns, ∀ b ∈ column.1, b.source.On P) :
    ColumnsOn P (settleOnes w carry columns) := by
  induction columns generalizing w carry with
  | nil => exact fun _ hmem => absurd hmem List.not_mem_nil
  | cons column columns ih =>
    obtain ⟨hcolumn, hcolumns⟩ := List.forall_mem_cons.mp hon
    refine List.forall_mem_cons.mpr ⟨?_, ih _ _ hcolumns⟩
    intro b hb
    split_ifs at hb
    · rcases List.mem_append.mp hb with hb | hb
      · exact hcolumn b hb
      · obtain rfl := List.mem_singleton.mp hb
        trivial
    · exact hcolumn b hb

/-- Settled columns have the bits of the heap and constants. -/
lemma BitHeap.On.settled {h : BitHeap} (hon : h.On P) : ColumnsOn P h.settled := by
  refine settleOnes_on 0 0 _ ?_
  intro column hcolumn b hb
  obtain ⟨w, -, rfl⟩ := List.mem_map.mp hcolumn
  exact hon w b (Array.mem_toList_iff.mp hb)

/-! ### Compressors -/

/-- A compressor over some bits, at most three: its two outputs are the digits
of their number. -/
structure Compressed.Counts (c : Compressed) (bits : List HeapBit) : Prop where
  inputs : c.node.inputs = bits.map (·.source)
  length : bits.length ≤ 3
  sum : c.sum.source = .bit (.plain c.node.output 0)
  carry : c.carry.source = .bit (.plain c.node.output 1)

/-- What the outputs of compressors are worth is the number of their inputs. -/
def Consistent (v : Assignment) (nodes : List Compressor) : Prop :=
  ∀ node ∈ nodes, v node.output = (node.inputs.map (·.eval v)).sum

lemma consistent_append {nodes nodes' : List Compressor} :
    Consistent v (nodes ++ nodes') ↔ Consistent v nodes ∧ Consistent v nodes' := by
  simp only [Consistent, List.forall_mem_append]

/-- A compressor keeps the number of its inputs. -/
lemma Compressed.Counts.bitsSum_eq {c : Compressed} {bits : List HeapBit} (hc : c.Counts bits)
    (hv : v c.node.output = (c.node.inputs.map (·.eval v)).sum) :
    bitsSum v bits = c.sum.source.eval v + 2 * c.carry.source.eval v := by
  have hcount : v c.node.output = bitsSum v bits := by
    rw [hv, hc.inputs, List.map_map]
    rfl
  have hle : v c.node.output ≤ 3 := hcount ▸ (bitsSum_le_length v bits).trans hc.length
  rw [hc.sum, hc.carry, BitSource.eval_plain, BitSource.eval_plain, wordBit_eq (by decide),
    wordBit_eq (by decide), ← hcount]
  omega

/-- Compressors one after the other over the first bits of a list, and the bits
that are left. -/
inductive Compresses : List Compressed → List HeapBit → List HeapBit → Prop
  | done (left : List HeapBit) : Compresses [] left left
  | step {c : Compressed} {cs : List Compressed} {inputs bits left : List HeapBit}
      (counts : c.Counts inputs) (rest : Compresses cs bits left) :
      Compresses (c :: cs) (inputs ++ bits) left

namespace Compresses

variable {cs cs' : List Compressed} {bits left left' : List HeapBit}

lemma append (h : Compresses cs bits left) (h' : Compresses cs' left left') :
    Compresses (cs ++ cs') bits left' := by
  induction h with
  | done left => exact h'
  | step counts rest ih => exact .step counts (ih h')

/-- Sums, carries and the bits that are left make up the bits. -/
lemma bitsSum_eq (h : Compresses cs bits left) (hv : Consistent v (cs.map (·.node))) :
    bitsSum v bits =
      bitsSum v (cs.map (·.sum)) + 2 * bitsSum v (cs.map (·.carry)) + bitsSum v left := by
  induction h with
  | done left => simp
  | step counts rest ih =>
    obtain ⟨hc, hcs⟩ := List.forall_mem_cons.mp hv
    rw [bitsSum_append, counts.bitsSum_eq hc, ih hcs, List.map_cons, List.map_cons, bitsSum_cons,
      bitsSum_cons]
    ring

lemma left_subset (h : Compresses cs bits left) : left ⊆ bits := by
  induction h with
  | done left => exact fun _ hb => hb
  | step counts rest ih => exact fun b hb => List.mem_append_right _ (ih hb)

/-- Sums and carries are bits of the outputs. -/
lemma outputs_on (h : Compresses cs bits left) (hout : ∀ c ∈ cs, P c.node.output) :
    (∀ b ∈ cs.map (·.sum), b.source.On P) ∧ ∀ b ∈ cs.map (·.carry), b.source.On P := by
  induction h with
  | done left => simp
  | step counts rest ih =>
    obtain ⟨hc, hcs⟩ := List.forall_mem_cons.mp hout
    obtain ⟨hsums, hcarries⟩ := ih hcs
    refine ⟨List.forall_mem_cons.mpr ⟨?_, hsums⟩, List.forall_mem_cons.mpr ⟨?_, hcarries⟩⟩
    · rw [counts.sum]
      exact hc
    · rw [counts.carry]
      exact hc

end Compresses

/-! ### Rounds -/

/-- One round over columns, into the first of which come carries: every column
is compressed in some order. What a tall column loses is more than what comes
of it. -/
inductive Reduces :
    List HeapBit → List (List HeapBit) → List Compressor → List (List HeapBit) → Prop
  | top (carries : List HeapBit) : Reduces carries [] [] []
  | column {cs : List Compressed} {carries column bits left : List HeapBit}
      {columns rest : List (List HeapBit)} {nodes : List Compressor} (order : bits.Perm column)
      (compresses : Compresses cs bits left)
      (fewer : 2 * cs.length + left.length + (if 2 < column.length then 1 else 0) ≤ column.length)
      (reduces : Reduces (cs.map (·.carry)) columns nodes rest) :
      Reduces carries (column :: columns) (cs.map (·.node) ++ nodes)
        ((carries ++ cs.map (·.sum) ++ left) :: rest)

namespace Reduces

variable {carries : List HeapBit} {columns columns' : List (List HeapBit)} {nodes : List Compressor}

lemma length_eq (h : Reduces carries columns nodes columns') :
    columns'.length = columns.length := by
  induction h with
  | top carries => rfl
  | column order compresses fewer reduces ih => rw [List.length_cons, List.length_cons, ih]

/-- A round keeps the sum of the columns and of the carries into them, apart
from carries out of the top column. -/
lemma weigh_modEq (h : Reduces carries columns nodes columns') (hv : Consistent v nodes) :
    weigh v columns' ≡ bitsSum v carries + weigh v columns [MOD 2 ^ columns.length] := by
  induction h with
  | top carries => exact Nat.modEq_one
  | @column cs carries column bits left columns rest nodes order compresses fewer reduces ih =>
    obtain ⟨hcs, hnodes⟩ := consistent_append.mp hv
    have hrest := (ih hnodes).mul_left' 2
    have hcolumn : bitsSum v column = bitsSum v bits :=
      ((order.map fun b : HeapBit => b.source.eval v).sum_eq).symm
    rw [weigh, weigh, bitsSum_append, bitsSum_append, hcolumn, compresses.bitsSum_eq hcs,
      List.length_cons, pow_succ']
    calc bitsSum v carries + bitsSum v (cs.map (·.sum)) + bitsSum v left + 2 * weigh v rest
        ≡ bitsSum v carries + bitsSum v (cs.map (·.sum)) + bitsSum v left +
            2 * (bitsSum v (cs.map (·.carry)) + weigh v columns)
          [MOD 2 * 2 ^ columns.length] := hrest.add_left _
      _ = bitsSum v carries + (bitsSum v (cs.map (·.sum)) +
            2 * bitsSum v (cs.map (·.carry)) + bitsSum v left + 2 * weigh v columns) := by ring

/-- A round over a tall column leaves fewer bits. -/
lemma fewer (h : Reduces carries columns nodes columns') :
    columns'.flatten.length + (if ∃ column ∈ columns, 2 < column.length then 1 else 0) ≤
      carries.length + columns.flatten.length := by
  induction h with
  | top carries => simp
  | @column cs carries column bits left columns rest nodes order compresses fewer reduces ih =>
    simp only [List.flatten_cons, List.length_append, List.length_map, List.mem_cons,
      exists_eq_or_imp] at *
    split_ifs at * with htall <;> grind

/-- The bits after a round are outputs of its compressors or were there
before. -/
lemma columnsOn (h : Reduces carries columns nodes columns') {Q : SignalId → Prop}
    (hle : ∀ id, P id → Q id) (hout : ∀ node ∈ nodes, Q node.output)
    (hcarries : ∀ b ∈ carries, b.source.On Q) (hcolumns : ColumnsOn P columns) :
    ColumnsOn Q columns' := by
  induction h with
  | top carries => exact fun _ hmem => absurd hmem List.not_mem_nil
  | column order compresses fewer reduces ih =>
    obtain ⟨hcolumn, hcolumns⟩ := List.forall_mem_cons.mp hcolumns
    obtain ⟨hcs, hnodes⟩ := List.forall_mem_append.mp hout
    obtain ⟨hsums, hcarries'⟩ := compresses.outputs_on fun c hc =>
      hcs _ (List.mem_map_of_mem hc)
    refine List.forall_mem_cons.mpr ⟨?_, ih hnodes hcarries' hcolumns⟩
    intro b hb
    rcases List.mem_append.mp hb with hb | hb
    · rcases List.mem_append.mp hb with hb | hb
      · exact hcarries b hb
      · exact hsums b hb
    · exact (hcolumn b (order.subset (compresses.left_subset hb))).mono hle

end Reduces

/-- Rounds one after the other. -/
inductive Rounds : List (List HeapBit) → List Compressor → List (List HeapBit) → Prop
  | done (columns : List (List HeapBit)) : Rounds columns [] columns
  | round {columns columns' columns'' : List (List HeapBit)} {nodes nodes' : List Compressor}
      (reduces : Reduces [] columns nodes columns') (rest : Rounds columns' nodes' columns'') :
      Rounds columns (nodes ++ nodes') columns''

namespace Rounds

variable {columns columns' : List (List HeapBit)} {nodes : List Compressor}

lemma length_eq (h : Rounds columns nodes columns') : columns'.length = columns.length := by
  induction h with
  | done columns => rfl
  | round reduces rest ih => rw [ih, reduces.length_eq]

/-- Rounds keep the sum of the columns modulo their width. -/
lemma weigh_modEq (h : Rounds columns nodes columns') (hv : Consistent v nodes) :
    weigh v columns' ≡ weigh v columns [MOD 2 ^ columns.length] := by
  induction h with
  | done columns => rfl
  | @round columns columns' columns'' nodes nodes' reduces rest ih =>
    obtain ⟨hnodes, hnodes'⟩ := consistent_append.mp hv
    have hround := reduces.weigh_modEq hnodes
    rw [bitsSum_nil, Nat.zero_add] at hround
    have hrest := ih hnodes'
    rw [reduces.length_eq] at hrest
    exact hrest.trans hround

end Rounds

end Datapath
