/-
How fast a compression reduces the heights of columns.

* `wallaceRounds`: the rounds that a column of some height needs at most, if each
  takes away a third of it.
* `reduceColumn_length`: a column passes on a third of its bits as carries, and
  keeps a third, each rounded up.
* `reduceColumns_height`: so a round leaves two thirds of the tallest column.
* `reduceAll_rounds`, `reduceAll_fuel`: the rounds end as soon as columns of such
  heights need, whatever their number is limited to.
* `length_settled_le`: settling constants adds one bit to a column at most.
* `rounds_of_compression`: what this means for the compression of a heap.
-/
import Datapath.Proofs.BitHeap.Sum

namespace Datapath

/-! ### Rounds by height -/

/-- The rounds after which no column of a height of `height` holds more than two
bits, if every round takes away a third of the tallest column, rounded down. -/
def wallaceRounds (height : ℕ) : ℕ :=
  if height ≤ 2 then 0 else 1 + wallaceRounds (height - height / 3)
termination_by height

variable {height height' : ℕ}

lemma wallaceRounds_of_le (h : height ≤ 2) : wallaceRounds height = 0 := by
  rw [wallaceRounds, if_pos h]

lemma wallaceRounds_of_lt (h : 2 < height) :
    wallaceRounds height = 1 + wallaceRounds (height - height / 3) := by
  rw [wallaceRounds, if_neg (by omega)]

/-- A column of eight bits and a constant: a round each for nine, six, four and
three bits. -/
example : wallaceRounds 9 = 4 := by cbv

/-- Taller columns need as many rounds or more. -/
lemma wallaceRounds_mono : Monotone wallaceRounds := by
  intro low high hle
  induction high using wallaceRounds.induct generalizing low with
  | case1 high hshort => rw [wallaceRounds_of_le (hle.trans hshort), wallaceRounds_of_le hshort]
  | case2 high htall ih =>
    rw [wallaceRounds_of_lt (not_le.mp htall)]
    rcases Nat.lt_or_ge 2 low with hlow | hlow
    · rw [wallaceRounds_of_lt hlow]
      exact Nat.add_le_add_left (ih (by omega)) 1
    · rw [wallaceRounds_of_le hlow]
      exact Nat.zero_le _

/-- Every round takes away at least one bit. -/
lemma wallaceRounds_le (height : ℕ) : wallaceRounds height ≤ height := by
  induction height using wallaceRounds.induct with
  | case1 height hshort =>
    rw [wallaceRounds_of_le hshort]
    exact Nat.zero_le _
  | case2 height htall ih =>
    rw [wallaceRounds_of_lt (not_le.mp htall)]
    omega

/-! ### One round -/

variable {t : Target} {b b' : Builder} {columns columns' : List (List HeapBit)}

namespace Round

variable {r : Round} {w : ℕ} {carries column left : List HeapBit} {cs : List Compressed}
  {nodes : List Compressor}

/-- A column passes on a third of its bits as carries, rounded to the nearest
number. It is left with two bits at most, with its incoming carries, or beside
these with a third of its bits, rounded up. -/
lemma reduceColumn_length (h : r.reduceColumn w carries column b = .ok (cs, left) b') :
    3 * cs.length ≤ column.length + 1 ∧
      (carries.length + cs.length + left.length ≤ 2 ∨
        3 * (cs.length + left.length) ≤ column.length + 2) := by
  obtain ⟨⟨cs', left'⟩, b₁, hfull, h⟩ := bind_eq_ok.mp h
  obtain ⟨hlength, hleft⟩ := fullAdders_length hfull
  rw [HeapBit.sorted, (List.mergeSort_perm _ _).length_eq] at hlength
  dsimp only at h
  split_ifs at h with hhalf
  · obtain ⟨c, b₂, -, h⟩ := bind_eq_ok.mp h
    obtain ⟨heq, rfl⟩ := pure_eq_ok.mp h
    cases heq
    rw [List.length_append, List.length_singleton, List.length_nil]
    omega
  · obtain ⟨heq, rfl⟩ := pure_eq_ok.mp h
    cases heq
    omega

/-- A round takes away a third of the tallest column. The carries into the first
column are at most those that a column of that height passes on. -/
lemma reduceColumns_height (h : r.reduceColumns w carries columns b = .ok (nodes, columns') b')
    (hheight : 2 < height) (hcarries : 3 * carries.length ≤ height + 1)
    (hcolumns : ∀ c ∈ columns, c.length ≤ height) :
    ∀ c ∈ columns', c.length ≤ height - height / 3 := by
  induction columns generalizing b w carries nodes columns' with
  | nil =>
    obtain ⟨heq, -⟩ := pure_eq_ok.mp h
    cases heq
    exact fun c hc => absurd hc List.not_mem_nil
  | cons column columns ih =>
    obtain ⟨⟨cs, left⟩, b₁, hcolumn, h⟩ := bind_eq_ok.mp h
    obtain ⟨⟨others, rest⟩, b₂, hrest, h⟩ := bind_eq_ok.mp h
    obtain ⟨heq, rfl⟩ := pure_eq_ok.mp h
    cases heq
    obtain ⟨hfirst, hcolumns⟩ := List.forall_mem_cons.mp hcolumns
    obtain ⟨hpassed, hkept⟩ := reduceColumn_length hcolumn
    refine List.forall_mem_cons.mpr ⟨?_, ih hrest ?_ hcolumns⟩
    · simp only [List.length_append, List.length_map]
      omega
    · rw [List.length_map]
      omega

end Round

/-! ### All rounds -/

variable {tag : String} {fuel fuel' done : ℕ} {red : Reduction}

/-- Where no column is tall, nothing is left to do. -/
lemma reduceAll_of_short (hshort : ∀ c ∈ columns, c.length ≤ 2) :
    reduceAll t tag fuel done columns = pure ⟨[], columns, done⟩ := by
  cases fuel with
  | zero => rfl
  | succ fuel =>
    rw [reduceAll, if_neg]
    simpa using hshort

/-- Where a column is tall, there is a round. -/
lemma reduceAll_of_tall (htall : ¬ ∀ c ∈ columns, c.length ≤ 2) :
    reduceAll t tag (fuel + 1) done columns = do
      let (nodes, columns) ← Round.reduceColumns ⟨t, tag, done + 1⟩ 0 [] columns
      let r ← reduceAll t tag fuel (done + 1) columns
      return { r with compressors := nodes ++ r.compressors } := by
  rw [reduceAll, if_pos]
  simpa using htall

/-- With a limit that allows the rounds for their heights, there are no more than
these, and no column holds more than two bits in the end. -/
lemma reduceAll_rounds (h : reduceAll t tag fuel done columns b = .ok red b')
    (hcolumns : ∀ c ∈ columns, c.length ≤ height) (hfuel : wallaceRounds height ≤ fuel) :
    red.rounds ≤ done + wallaceRounds height ∧ ∀ c ∈ red.columns, c.length ≤ 2 := by
  induction height using wallaceRounds.induct generalizing b done columns fuel red with
  | case1 height hheight =>
    have hshort : ∀ c ∈ columns, c.length ≤ 2 := fun c hc => (hcolumns c hc).trans hheight
    rw [reduceAll_of_short hshort] at h
    obtain ⟨rfl, -⟩ := pure_eq_ok.mp h
    exact ⟨Nat.le_add_right _ _, hshort⟩
  | case2 height hheight ih =>
    by_cases hshort : ∀ c ∈ columns, c.length ≤ 2
    · rw [reduceAll_of_short hshort] at h
      obtain ⟨rfl, -⟩ := pure_eq_ok.mp h
      exact ⟨Nat.le_add_right _ _, hshort⟩
    · rw [wallaceRounds_of_lt (not_le.mp hheight)] at hfuel ⊢
      obtain ⟨fuel, rfl⟩ := Nat.exists_eq_add_of_le' ((Nat.le_add_right 1 _).trans hfuel)
      rw [reduceAll_of_tall hshort] at h
      obtain ⟨⟨nodes, columns'⟩, b₁, hround, h⟩ := bind_eq_ok.mp h
      obtain ⟨red', b₂, hrest, h⟩ := bind_eq_ok.mp h
      obtain ⟨rfl, rfl⟩ := pure_eq_ok.mp h
      have hlower := Round.reduceColumns_height hround (not_le.mp hheight) (Nat.zero_le _)
        hcolumns
      have hfuel : wallaceRounds (height - height / 3) ≤ fuel := by omega
      obtain ⟨hrounds, hended⟩ := ih hrest hlower hfuel
      refine ⟨?_, hended⟩
      dsimp only
      omega

/-- With a limit that allows the rounds for their heights, the rounds do not
depend on it. -/
lemma reduceAll_fuel (hcolumns : ∀ c ∈ columns, c.length ≤ height)
    (hfuel : wallaceRounds height ≤ fuel) (hfuel' : wallaceRounds height ≤ fuel') :
    reduceAll t tag fuel done columns = reduceAll t tag fuel' done columns := by
  induction height using wallaceRounds.induct generalizing done columns fuel fuel' with
  | case1 height hheight =>
    have hshort : ∀ c ∈ columns, c.length ≤ 2 := fun c hc => (hcolumns c hc).trans hheight
    rw [reduceAll_of_short hshort, reduceAll_of_short hshort]
  | case2 height hheight ih =>
    by_cases hshort : ∀ c ∈ columns, c.length ≤ 2
    · rw [reduceAll_of_short hshort, reduceAll_of_short hshort]
    · rw [wallaceRounds_of_lt (not_le.mp hheight)] at hfuel hfuel'
      obtain ⟨fuel, rfl⟩ := Nat.exists_eq_add_of_le' ((Nat.le_add_right 1 _).trans hfuel)
      obtain ⟨fuel', rfl⟩ := Nat.exists_eq_add_of_le' ((Nat.le_add_right 1 _).trans hfuel')
      rw [reduceAll_of_tall hshort, reduceAll_of_tall hshort]
      funext b
      refine bind_congr_ok ?_
      rintro ⟨nodes, columns'⟩ b₁ hround
      have hlower := Round.reduceColumns_height hround (not_le.mp hheight) (Nat.zero_le _)
        hcolumns
      have hfuel : wallaceRounds (height - height / 3) ≤ fuel := by omega
      have hfuel' : wallaceRounds (height - height / 3) ≤ fuel' := by omega
      dsimp only
      rw [ih hlower hfuel hfuel']

/-! ### The compression of a heap -/

/-- The bits of a heap by columns, apart from constants. -/
def BitHeap.bitColumns (h : BitHeap) : List (List HeapBit) :=
  (List.range h.width).map fun w => (h.column w).toList

/-- Constants add at most one bit to a column. -/
lemma length_settleOnes_le {w carry : ℕ} {columns : List (List HeapBit × ℕ)}
    (h : ∀ c ∈ columns, c.1.length ≤ height) :
    ∀ c ∈ settleOnes w carry columns, c.length ≤ 1 + height := by
  induction columns generalizing w carry with
  | nil => exact fun c hc => absurd hc List.not_mem_nil
  | cons column columns ih =>
    obtain ⟨hfirst, hothers⟩ := List.forall_mem_cons.mp h
    refine List.forall_mem_cons.mpr ⟨?_, ih hothers⟩
    split_ifs
    · rw [List.length_append, List.length_singleton]
      omega
    · omega

lemma BitHeap.length_settled_le (h : BitHeap) :
    ∀ c ∈ h.settled, c.length ≤ 1 + tallest h.bitColumns 0 := by
  refine length_settleOnes_le ?_
  intro c hc
  obtain ⟨w, hw, rfl⟩ := List.mem_map.mp hc
  exact (tallest_bounds h.bitColumns 0).2 _ (List.mem_map_of_mem hw)

/-- As many rounds as there are bits are enough. -/
lemma wallaceRounds_tallest_le (columns : List (List HeapBit)) :
    wallaceRounds (tallest columns 0) ≤ columns.flatten.length :=
  (wallaceRounds_le _).trans <| tallest_le (Nat.zero_le _) fun _ hc =>
    (List.sublist_flatten_of_mem hc).length_le

/-- **A compression ends as fast as a Wallace tree.** Every round takes away a
third of the tallest column. So the rounds end, after no more than columns need that
have one bit more than those of the heap; any limit that allows these gives the same
result. They leave at most two bits in every column, and so one or two rows. -/
theorem rounds_of_compression (h : BitHeap) (t : Target) :
    (∀ (r : Round) (w : ℕ) (columns columns' : List (List HeapBit)) (nodes : List Compressor)
        (b b' : Builder), 2 < tallest columns 0 →
      r.reduceColumns w [] columns b = .ok (nodes, columns') b' →
      tallest columns' 0 ≤ tallest columns 0 - tallest columns 0 / 3) ∧
    (∀ (tag : String) (fuel : ℕ), wallaceRounds (1 + tallest h.bitColumns 0) ≤ fuel →
      reduceAll t tag fuel 0 h.settled = reduceAll t tag h.settled.flatten.length 0 h.settled) ∧
    ∀ (b b' : Builder) (o : HeapOutcome), h.compress t b = .ok o b' →
      o.rounds ≤ wallaceRounds (1 + tallest h.bitColumns 0) ∧
      (o.rows.length = 1 ∨ o.rows.length = 2) ∧
      ∃ (tag : String) (b₁ b₂ : Builder) (done : Reduction),
        reduceAll t tag h.settled.flatten.length 0 h.settled b₁ = .ok done b₂ ∧
        done.rounds = o.rounds ∧ (∀ c ∈ done.columns, c.length ≤ 2) ∧
        o.rows.map (·.bits) =
          (List.range (tallest done.columns 1)).map (rowOf done.columns) := by
  have hsettled : ∀ c ∈ h.settled, c.length ≤ tallest h.settled 0 := (tallest_bounds _ 0).2
  have hbits : wallaceRounds (tallest h.settled 0) ≤ wallaceRounds (1 + tallest h.bitColumns 0) :=
    wallaceRounds_mono (tallest_le (Nat.zero_le _) h.length_settled_le)
  have hlimit := wallaceRounds_tallest_le h.settled
  refine ⟨?_, ?_, ?_⟩
  · intro r w columns columns' nodes b b' htall hround
    refine tallest_le (Nat.zero_le _) ?_
    exact Round.reduceColumns_height hround htall (Nat.zero_le _) (tallest_bounds columns 0).2
  · exact fun tag fuel hfuel => reduceAll_fuel hsettled (hbits.trans hfuel) hlimit
  · intro b b' o hcompress
    obtain ⟨uid, b₁, -, hcompress⟩ := bind_eq_ok.mp hcompress
    obtain ⟨done, b₂, hdone, hcompress⟩ := bind_eq_ok.mp hcompress
    obtain ⟨rows, b₃, hrows, hcompress⟩ := bind_eq_ok.mp hcompress
    obtain ⟨⟨result, merge⟩, b₄, -, hcompress⟩ := bind_eq_ok.mp hcompress
    obtain ⟨rfl, -⟩ := pure_eq_ok.mp hcompress
    obtain ⟨hrounds, hshort⟩ := reduceAll_rounds hdone hsettled hlimit
    have hlaid := layRows_bits hrows
    have hcount : rows.length = tallest done.columns 1 := by
      have hlengths := congrArg List.length hlaid
      rwa [List.length_map, List.length_map, List.length_range] at hlengths
    have hwithin := hrounds.trans ((Nat.zero_add _).le.trans hbits)
    exact ⟨hwithin, hcount ▸ tallest_of_short hshort, _, _, _, done, hdone, rfl, hshort, hlaid⟩

/-- A heap with three bits in its column. -/
def tallSum : BitHeap where
  width := 1
  lsbWeight := 0
  overflow := .modular
  columns := #[#[inputBit 0 0 false, inputBit 0 1 false, inputBit 0 1 true]]
  ones := #[0]

open Runs in
lemma tallSum_compress : ∃ o b', tallSum.compress unclocked oneInput = .ok o b' := by
  have hsettled : tallSum.settled =
      [[inputBit 0 0 false, inputBit 0 1 false, inputBit 0 1 true]] := rfl
  have hready : ∀ i j m n, HeapBit.upTo (inputBit 0 i m) (inputBit 0 j n) = true :=
    fun _ _ _ _ => rfl
  have hsorted : HeapBit.sorted [inputBit 0 0 false, inputBit 0 1 false, inputBit 0 1 true] =
      [inputBit 0 0 false, inputBit 0 1 false, inputBit 0 1 true] :=
    List.mergeSort_of_pairwise (by simp [hready])
  have hpipelined : unclocked.pipelined = false := rfl
  have hwidth : tallSum.width = 1 := rfl
  have hzero : Nat.repr 0 = "0" := rfl
  have hone : Nat.repr 1 = "1" := rfl
  simp only [inputBit] at hsorted
  simp [BitHeap.compress, hsettled, hsorted, hpipelined, hwidth, hzero, hone, reduceAll,
    Round.reduceColumns, Round.reduceColumn, Round.fullAdders, compressor, compressorName, allReady,
    layRows, readSources, inputBit, HeapBit.latest, HeapBit.ready, BitRef.plain, declareRows,
    tallest, sumRows, oneInput]

theorem rounds_of_compression_tallSum :
    ∃ o b', tallSum.compress unclocked oneInput = .ok o b' ∧ o.rounds ≤ 2 ∧
      (o.rows.length = 1 ∨ o.rows.length = 2) := by
  obtain ⟨o, b', hcompress⟩ := tallSum_compress
  obtain ⟨-, -, hall⟩ := rounds_of_compression tallSum unclocked
  obtain ⟨hrounds, hrows, -⟩ := hall oneInput b' o hcompress
  have htallest : tallest tallSum.bitColumns 0 = 3 := rfl
  have hmost : wallaceRounds (1 + 3) = 2 := by cbv
  rw [htallest, hmost] at hrounds
  exact ⟨o, b', hcompress, hrounds, hrows⟩

end Datapath
