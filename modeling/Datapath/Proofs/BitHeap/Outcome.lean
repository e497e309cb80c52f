/-
The outcome of a compression is the sum of the heap.

* `rowWeigh`: the sum of a row; `rowWeigh_lt`: rows fit in their width.
* `rowWeigh_single`, `rowWeigh_pair`: the rows of columns of at most two bits
  make up their sum.
* `BitHeap.Compression`: what `compress` did when it succeeded.
* `BitHeap.evaluate_compress`: what the hardware computes from it is the value
  of the heap.
-/
import Datapath.Proofs.Adder.Sum
import Datapath.Proofs.BitHeap.Rounds

namespace Datapath

variable {v : Assignment} {values : Valuation}

/-! ### Rows -/

/-- The sum of a row. -/
def rowWeigh (v : Assignment) : List (Option BitSource) → ℕ
  | [] => 0
  | s :: bits => s.elim 0 (·.eval v) + 2 * rowWeigh v bits

/-- Rows fit in their width. -/
lemma rowWeigh_lt (v : Assignment) (bits : List (Option BitSource)) :
    rowWeigh v bits < 2 ^ bits.length := by
  induction bits with
  | nil => exact Nat.one_pos
  | cons s bits ih =>
    have hbit : s.elim 0 (·.eval v) ≤ 1 := by
      cases s with
      | none => exact Nat.zero_le 1
      | some s => exact s.eval_le_one v
    rw [rowWeigh, List.length_cons, pow_succ]
    omega

/-- The value of a row is its sum. -/
lemma rowValue_eq (w : ℕ) {bits : List (Option BitSource)}
    (h : ∀ s, some s ∈ bits → s.On (values.Gives v)) :
    rowValue values w bits = .ok (rowWeigh v bits * 2 ^ w) := by
  induction bits generalizing w with
  | nil =>
    rw [rowValue, rowWeigh, Nat.zero_mul]
  | cons s bits ih =>
    have hrest := ih (w + 1) fun s hs => h s (List.mem_cons_of_mem _ hs)
    cases s with
    | none =>
      rw [rowValue, hrest, rowWeigh, Option.elim_none]
      congr 1
      ring
    | some s =>
      rw [rowValue, BitSource.value_eq (h s List.mem_cons_self), hrest, rowWeigh, Option.elim_some,
        Nat.add_mul, ← Nat.shiftLeft_eq (s.eval v), pow_succ', ← Nat.mul_assoc,
        Nat.mul_comm (rowWeigh v bits) 2]
      rfl

/-- The values of rows are their sums. -/
lemma rowValues_eq {rows : List HeapRow}
    (h : ∀ r ∈ rows, ∀ s, some s ∈ r.bits → s.On (values.Gives v)) :
    rowValues values rows = .ok (rows.map fun r => rowWeigh v r.bits) := by
  induction rows with
  | nil => rfl
  | cons r rows ih =>
    obtain ⟨hr, hrows⟩ := List.forall_mem_cons.mp h
    rw [rowValues, rowValue_eq 0 hr, ih hrows, pow_zero, Nat.mul_one, List.map_cons]
    rfl

/-- The bits in place `r` of all columns. -/
def rowOf (columns : List (List HeapBit)) (r : ℕ) : List (Option BitSource) :=
  columns.map fun column => column[r]?.map (·.source)

/-- Columns of at most one bit have one row. -/
lemma rowWeigh_single {columns : List (List HeapBit)} (h : ∀ c ∈ columns, c.length ≤ 1) :
    rowWeigh v (rowOf columns 0) = weigh v columns := by
  induction columns with
  | nil => rfl
  | cons column columns ih =>
    obtain ⟨hcolumn, hcolumns⟩ := List.forall_mem_cons.mp h
    rw [rowOf, List.map_cons, rowWeigh, weigh, ← rowOf, ih hcolumns]
    congr 1
    obtain _ | ⟨x, _ | ⟨y, bits⟩⟩ := column
    · rfl
    · rfl
    · exact absurd hcolumn (by simp)

/-- Columns of at most two bits have two rows. -/
lemma rowWeigh_pair {columns : List (List HeapBit)} (h : ∀ c ∈ columns, c.length ≤ 2) :
    rowWeigh v (rowOf columns 0) + rowWeigh v (rowOf columns 1) = weigh v columns := by
  induction columns with
  | nil => rfl
  | cons column columns ih =>
    obtain ⟨hcolumn, hcolumns⟩ := List.forall_mem_cons.mp h
    have hbits : bitsSum v column = (column[0]?.map (·.source)).elim 0 (·.eval v) +
        (column[1]?.map (·.source)).elim 0 (·.eval v) := by
      obtain _ | ⟨x, _ | ⟨y, _ | ⟨z, bits⟩⟩⟩ := column
      · rfl
      · rfl
      · rfl
      · exact absurd hcolumn (by simp)
    rw [rowOf, rowOf, List.map_cons, List.map_cons, rowWeigh, rowWeigh, weigh, ← rowOf, ← rowOf,
      ← ih hcolumns, hbits]
    ring

/-! ### Compressions -/

lemma tallest_bounds (columns : List (List HeapBit)) (least : ℕ) :
    least ≤ tallest columns least ∧ ∀ c ∈ columns, c.length ≤ tallest columns least := by
  induction columns generalizing least with
  | nil => exact ⟨le_rfl, fun _ h => absurd h List.not_mem_nil⟩
  | cons column columns ih =>
    obtain ⟨hleast, hcolumns⟩ := ih (max least column.length)
    exact ⟨(le_max_left _ _).trans hleast,
      List.forall_mem_cons.mpr ⟨(le_max_right _ _).trans hleast, hcolumns⟩⟩

lemma tallest_le {columns : List (List HeapBit)} {least n : ℕ} (hleast : least ≤ n)
    (h : ∀ c ∈ columns, c.length ≤ n) : tallest columns least ≤ n := by
  induction columns generalizing least with
  | nil => exact hleast
  | cons column columns ih =>
    obtain ⟨hcolumn, hcolumns⟩ := List.forall_mem_cons.mp h
    exact ih (max_le hleast hcolumn) hcolumns

/-- Columns of at most two bits have one or two rows. -/
lemma tallest_of_short {columns : List (List HeapBit)} (h : ∀ c ∈ columns, c.length ≤ 2) :
    tallest columns 1 = 1 ∨ tallest columns 1 = 2 := by
  have hleast := (tallest_bounds columns 1).1
  have hmost : tallest columns 1 ≤ 2 := tallest_le (by omega) h
  omega

/-- The rows that are declared have the bits of the columns. -/
lemma declareRows_bits {tag : String} {width r count : ℕ} {columns : List (List HeapBit)}
    {rows : List HeapRow} {b b' : Builder}
    (h : declareRows tag width r columns count b = .ok rows b') :
    rows.map (·.bits) = (List.range' r count).map (rowOf columns) := by
  induction count generalizing r b rows with
  | zero =>
    obtain ⟨rfl, -⟩ := pure_eq_ok.mp h
    rfl
  | succ count ih =>
    obtain ⟨signal, b₁, -, h⟩ := bind_eq_ok.mp h
    obtain ⟨rest, b₂, hrest, h⟩ := bind_eq_ok.mp h
    obtain ⟨rfl, rfl⟩ := pure_eq_ok.mp h
    rw [List.map_cons, ih hrest, List.range'_succ, List.map_cons]
    rfl

/-- The rows of columns have the bits of the columns. -/
lemma layRows_bits {tag : String} {width : ℕ} {columns : List (List HeapBit)}
    {rows : List HeapRow} {b b' : Builder} (h : layRows tag width columns b = .ok rows b') :
    rows.map (·.bits) = (List.range (tallest columns 1)).map (rowOf columns) := by
  have hdeclare : ∃ b₁, declareRows tag width 0 columns (tallest columns 1) b₁ = .ok rows b' := by
    rw [layRows] at h
    cases hlatest : HeapBit.latest columns.flatten with
    | none =>
      rw [hlatest] at h
      obtain ⟨_, b₁, -, h⟩ := bind_eq_ok.mp h
      exact ⟨b₁, h⟩
    | some bit =>
      rw [hlatest] at h
      obtain ⟨_, b₁, -, h⟩ := bind_eq_ok.mp h
      obtain ⟨_, b₂, -, h⟩ := bind_eq_ok.mp h
      exact ⟨b₂, h⟩
  obtain ⟨b₁, hdeclare⟩ := hdeclare
  rw [declareRows_bits hdeclare, List.range_eq_range']

/-- Two rows are added by a plan for their width. -/
lemma plan_of_sumRows {t : Target} {width : ℕ} {x y : HeapRow} {result : SignalId}
    {merge : Option ChunkPlan} {b b' : Builder}
    (h : sumRows t width [x, y] b = .ok (result, merge) b') :
    ∃ plan budget, merge = some plan ∧ ChunkPlan.make t width budget = .ok plan := by
  obtain ⟨sum, b₁, hsum, h⟩ := bind_eq_ok.mp h
  obtain ⟨heq, -⟩ := pure_eq_ok.mp h
  cases heq
  obtain ⟨budget, hmake⟩ := plan_of_carrySelect hsum
  exact ⟨sum.plan, budget, rfl, hmake⟩

namespace BitHeap

variable {h : BitHeap} {t : Target} {b b' : Builder} {o : HeapOutcome}

/-- What a compression that succeeds does to the heap: rounds that leave at
most two bits in a column, rows of these bits, and the addition of two rows. -/
structure Compression (h : BitHeap) (t : Target) (A : Set SignalId) (o : HeapOutcome)
    (columns : List (List HeapBit)) : Prop where
  rounds : Rounds h.settled o.compressors columns
  short : ∀ column ∈ columns, column.length ≤ 2
  wired : Wired A o.compressors
  known : ColumnsOn (· ∈ grown A o.compressors) columns
  width : o.width = h.width
  rows : o.rows.map (·.bits) = (List.range (tallest columns 1)).map (rowOf columns)
  merge : ∀ x y, o.rows = [x, y] →
    ∃ plan budget, o.merge = some plan ∧ ChunkPlan.make t h.width budget = .ok plan

lemma compress_eq_ok {A : Set SignalId} (hcompress : h.compress t b = .ok o b')
    (hA : ∀ id ∈ A, b.Declares id) (hon : h.On (· ∈ A)) :
    ∃ columns, h.Compression t A o columns := by
  obtain ⟨uid, b₁, huid, hcompress⟩ := bind_eq_ok.mp hcompress
  obtain ⟨done, b₂, hdone, hcompress⟩ := bind_eq_ok.mp hcompress
  obtain ⟨rows, b₃, hrows, hcompress⟩ := bind_eq_ok.mp hcompress
  obtain ⟨⟨result, merge⟩, b₄, hsum, hcompress⟩ := bind_eq_ok.mp hcompress
  obtain ⟨rfl, rfl⟩ := pure_eq_ok.mp hcompress
  obtain ⟨hrounds, hshort, hwires, hknown⟩ := reduceAll_wires hdone le_rfl
    (fun id hid => (hA id hid).mono (Build.uniqueId_rising huid)) hon.settled
  refine ⟨done.columns, hrounds, hshort, hwires.wired, hknown, rfl, layRows_bits hrows, ?_⟩
  rintro x y rfl
  exact plan_of_sumRows hsum

/-- The rows of a compression have the bits that are known after its
compressors. -/
lemma Compression.rows_known {A : Set SignalId} {columns : List (List HeapBit)}
    (hc : h.Compression t A o columns) :
    ∀ r ∈ o.rows, ∀ s, some s ∈ r.bits → s.On (· ∈ grown A o.compressors) := by
  intro r hr s hs
  have hbits : r.bits ∈ (List.range (tallest columns 1)).map (rowOf columns) :=
    hc.rows ▸ List.mem_map_of_mem hr
  obtain ⟨i, -, hrow⟩ := List.mem_map.mp hbits
  rw [← hrow] at hs
  obtain ⟨column, hcolumn, hs⟩ := List.mem_map.mp hs
  obtain ⟨x, hx, rfl⟩ := Option.map_eq_some_iff.mp hs
  exact hc.known column hcolumn x (List.mem_of_getElem? hx)

/-- The rows have the sums of the bits in their places. -/
lemma Compression.rowWeigh_rows {A : Set SignalId} {columns : List (List HeapBit)}
    (hc : h.Compression t A o columns) (v : Assignment) :
    (o.rows.map fun r => rowWeigh v r.bits) =
      (List.range (tallest columns 1)).map fun r => rowWeigh v (rowOf columns r) := by
  have hbits := congrArg (List.map (rowWeigh v)) hc.rows
  rw [List.map_map, List.map_map] at hbits
  exact hbits

/-- There are one or two rows. -/
lemma Compression.tallest_eq {A : Set SignalId} {columns : List (List HeapBit)}
    (hc : h.Compression t A o columns) : tallest columns 1 = 1 ∨ tallest columns 1 = 2 :=
  tallest_of_short hc.short

/-- Where every compressor counts its inputs and the signals of the heap are as
they were, the columns that are left have the sum of the heap. -/
lemma Compression.weigh_modEq {A : Set SignalId} {columns : List (List HeapBit)}
    (hc : h.Compression t A o columns) (hsame : h.On fun id => drive v o.compressors id = v id) :
    weigh (drive v o.compressors) columns ≡ h.total v [MOD 2 ^ h.width] := by
  have hrounds := hc.rounds.weigh_modEq (drive_eq hc.wired v).2
  rw [length_settled] at hrounds
  rw [← total_congr hsame]
  exact hrounds.trans (h.weigh_settled _)

/-- The hardware of a compression computes the value of the heap. -/
lemma evaluate_compress {leaf : Valuation} (hcompress : h.compress t b = .ok o b')
    (hdeclared : h.On b.Declares) (hwidth : h.width ≤ wordBits) (hleaf : h.On (leaf.Gives v)) :
    o.evaluate leaf = .ok (h.total v % 2 ^ h.width) := by
  set A : Set SignalId := {id | b.Declares id ∧ leaf.Gives v id} with hA
  have hknown : h.On (· ∈ A) := fun w x hx => (hdeclared w x hx).and (hleaf w x hx)
  obtain ⟨columns, hc⟩ := compress_eq_ok (A := A) hcompress (fun id hid => hid.1) hknown
  have hsum := hc.weigh_modEq (hknown.mono (drive_eq hc.wired v).1)
  have hstart : ∀ id ∈ A, (overlay ∅ leaf).Gives v id := by
    intro id hid
    rw [Valuation.Gives, overlay, Std.HashMap.getElem?_empty, Option.none_or]
    exact hid.2
  obtain ⟨computed, hrun, hgives⟩ := runCompressors_eq hc.wired hstart
  have hrows := rowValues_eq fun r hr s hs => (hc.rows_known r hr s hs).mono hgives
  have hlength : columns.length = h.width := by rw [hc.rounds.length_eq, length_settled]
  rw [HeapOutcome.evaluate, hc.width, if_neg (by omega), hrun]
  change (rowValues (overlay computed leaf) o.rows >>= _) = _
  rw [hrows, hc.rowWeigh_rows]
  obtain hone | htwo := hc.tallest_eq
  · -- one row is the sum, and fits in the width
    have hshort : ∀ column ∈ columns, column.length ≤ 1 := fun column hmem =>
      hone ▸ (tallest_bounds columns 1).2 column hmem
    have hrow := rowWeigh_lt (drive v o.compressors) (rowOf columns 0)
    rw [rowWeigh_single hshort, rowOf, List.length_map, hlength] at hrow
    rw [hone]
    change Except.ok (rowWeigh _ (rowOf columns 0)) = _
    rw [rowWeigh_single hshort, ← Nat.mod_eq_of_lt hrow, hsum]
  · -- two rows are added by a plan that was made for the width
    obtain ⟨x, y, hpair⟩ : ∃ x y, o.rows = [x, y] := by
      have hcount := congrArg List.length hc.rows
      rw [List.length_map, List.length_map, List.length_range, htwo] at hcount
      exact List.length_eq_two.mp hcount
    obtain ⟨plan, budget, hmerge, hmake⟩ := hc.merge x y hpair
    obtain ⟨hplan, hplanWidth⟩ := ChunkPlan.partition_of_make hmake
    have hpos := ChunkPlan.width_pos_of_make hmake
    rw [htwo, hmerge]
    change plan.simulate (rowWeigh _ (rowOf columns 0)) (rowWeigh _ (rowOf columns 1)) false = _
    rw [ChunkPlan.simulate_eq hplan (by omega) (by omega), hplanWidth, Bool.toNat_false,
      Nat.add_zero, rowWeigh_pair hc.short, hsum]

end BitHeap

end Datapath
