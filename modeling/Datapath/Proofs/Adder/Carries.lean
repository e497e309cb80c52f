/-
Carry-select addition is addition.

* `Contiguous`, `ChunkPlan.Partition`: the chunks of a plan lie side by side,
  none is empty, and they make up the width.
* `Chunk.add_eq`: the sum of two chunks and its carry are the remainder and the
  quotient of the sum as a number.
* `resolveCarries_cons`: whether a chunk kills, hands on or generates a carry,
  the running bit after it is the carry out of it.
* `foldl_select_eq`: the invariant of the selection. The sums selected so far
  are the low part of the whole sum, the running bit is its carry.
* `ChunkPlan.simulate_eq`: the structure computes the sum modulo its width.
* `ChunkPlan.partition_of_make`: the plans that are made are partitions.
-/
import Datapath.Adder.Long
import Datapath.Proofs.Words

namespace Datapath

/-! ### Partitions -/

/-- The chunks lie side by side from `offset` on. -/
def Contiguous : ℕ → List Chunk → Prop
  | _, [] => True
  | offset, c :: chunks => c.offset = offset ∧ Contiguous (offset + c.size) chunks

/-- The chunks of a plan are not empty, lie side by side from the lowest bit
on, and make up its width. -/
structure ChunkPlan.Partition (p : ChunkPlan) : Prop where
  size_pos : ∀ c ∈ p.chunks, 0 < c.size
  contiguous : Contiguous 0 p.chunks
  sum_sizes : p.sizes.sum = p.width

/-- Chunks that are laid out lie side by side. -/
lemma contiguous_layChunks (offset : ℕ) (sizes : List ℕ) :
    Contiguous offset (layChunks offset sizes) := by
  induction sizes generalizing offset with
  | nil => trivial
  | cons size sizes ih => exact ⟨rfl, ih (offset + size)⟩

/-- Laying chunks out keeps their sizes. -/
lemma map_size_layChunks (offset : ℕ) (sizes : List ℕ) :
    (layChunks offset sizes).map (·.size) = sizes := by
  induction sizes generalizing offset with
  | nil => rfl
  | cons size sizes ih => rw [layChunks, List.map_cons, ih]

namespace ChunkPlan

/-- A plan from sizes is a partition of its width. -/
lemma partition_of_ofSizes {width : ℕ} {sizes : List ℕ} {phase : PlanPhase} {p : ChunkPlan}
    (h : ofSizes width sizes phase = .ok p) : p.Partition ∧ p.width = width := by
  rw [ofSizes] at h
  split at h
  case isFalse => cases h
  case isTrue hsizes =>
    obtain ⟨hsum, hpos⟩ := hsizes
    cases h
    refine ⟨⟨?_, contiguous_layChunks 0 sizes, ?_⟩, rfl⟩
    · intro c hc
      have hmem : c.size ∈ sizes := by
        rw [← map_size_layChunks 0 sizes]
        exact List.mem_map_of_mem hc
      exact Nat.pos_of_ne_zero fun h0 => hpos (h0 ▸ hmem)
    · rw [ChunkPlan.sizes, map_size_layChunks, List.sum]
      exact hsum

/-- The plan of an addition is a partition of its width, on every target. -/
lemma partition_of_make {t : Target} {width : ℕ} {budget : Float} {p : ChunkPlan}
    (h : make t width budget = .ok p) : p.Partition ∧ p.width = width := by
  simp only [make] at h
  split_ifs at h
  · exact partition_of_ofSizes h
  · exact partition_of_ofSizes h
  · exact partition_of_ofSizes h
  · exact partition_of_ofSizes h

/-- There are no plans of additions without bits. -/
lemma width_pos_of_make {t : Target} {width : ℕ} {budget : Float} {p : ChunkPlan}
    (h : make t width budget = .ok p) : 0 < width := by
  rw [make] at h
  split at h
  case isTrue => cases h
  case isFalse hpos => exact Nat.pos_of_ne_zero hpos

end ChunkPlan

/-! ### One chunk -/

/-- A sum of two remainders and a carry carries at most once. -/
lemma carry_eq {m a b carry : ℕ} (ha : a < m) (hb : b < m) (hcarry : carry ≤ 1) :
    (a + b + carry) / m = if m ≤ a + b + carry then 1 else 0 := by
  split_ifs with h
  · exact Nat.div_eq_of_lt_le (by omega) (by omega)
  · exact Nat.div_eq_of_lt (by omega)

namespace Chunk

variable {c : Chunk} {a b carry : ℕ}

lemma select_eq (h : c.size ≤ wordBits) (v : ℕ) : c.select v = v / 2 ^ c.offset % 2 ^ c.size := by
  rw [select, truncateTo_eq h, Nat.shiftRight_eq_div_pow]

lemma select_lt (h : c.size ≤ wordBits) (v : ℕ) : c.select v < 2 ^ c.size := by
  rw [select_eq h]
  exact Nat.mod_lt _ (by positivity)

/-- The sum of two values of a chunk is the remainder of their sum, and the
carry out of it the quotient. -/
lemma add_eq (h : c.size ≤ wordBits) (ha : a < 2 ^ c.size) (hb : b < 2 ^ c.size)
    (hcarry : carry ≤ 1) :
    c.add a b carry = ((a + b + carry) % 2 ^ c.size, (a + b + carry) / 2 ^ c.size) := by
  rw [add, truncateTo_eq h, Nat.min_eq_left h, bitAt_eq, Nat.mod_eq_of_lt (b := 2)]
  rw [carry_eq ha hb hcarry]
  split_ifs <;> omega

/-- The carries out of a chunk without and with a carry into it. -/
def carries (c : Chunk) (x y : ℕ) : ℕ × ℕ :=
  ((c.add (c.select x) (c.select y) 0).2, (c.add (c.select x) (c.select y) 1).2)

/-- The carry out of a chunk with a given carry into it. -/
def carryOut (c : Chunk) (x y carry : ℕ) : ℕ := (c.select x + c.select y + carry) / 2 ^ c.size

lemma carryOut_le_one (h : c.size ≤ wordBits) (x y : ℕ) (hcarry : carry ≤ 1) :
    c.carryOut x y carry ≤ 1 := by
  rw [carryOut, carry_eq (select_lt h x) (select_lt h y) hcarry]
  split_ifs <;> omega

end Chunk

/-- One step of the resolution. The two carries of a chunk and the running one
add up to at least two exactly if there is a carry out of the chunk, so that
is what goes on. -/
lemma resolveCarries_cons {c : Chunk} (h : c.size ≤ wordBits) (x y : ℕ) {carry : ℕ}
    (hcarry : carry ≤ 1) (rest : List (ℕ × ℕ)) :
    resolveCarries carry (c.carries x y :: rest) =
      c.carryOut x y carry :: resolveCarries (c.carryOut x y carry) rest := by
  have hx := c.select_lt h x
  have hy := c.select_lt h y
  have hmajority : ((c.carries x y).2 + (c.carries x y).1 + carry) / 2 = c.carryOut x y carry := by
    rw [Chunk.carries, Chunk.add_eq h hx hy (by omega), Chunk.add_eq h hx hy (by omega),
      Chunk.carryOut]
    dsimp only
    rw [carry_eq hx hy (by omega), carry_eq hx hy (by omega), carry_eq hx hy hcarry]
    split_ifs <;> omega
  have hout := Chunk.carryOut_le_one h x y hcarry
  rw [resolveCarries, hmajority]
  generalize c.carryOut x y carry = out at *
  congr 1
  · split_ifs <;> omega
  · congr 1
    omega

/-! ### The selection -/

/-- A sum of two remainders is cut at `s` bits into the sum of the low parts
and the sum of the high parts with the carry from below. -/
lemma add_mod_split (X Y carry s S : ℕ) :
    (X % 2 ^ (s + S) + Y % 2 ^ (s + S) + carry) % 2 ^ (s + S) =
      (X % 2 ^ s + Y % 2 ^ s + carry) % 2 ^ s +
        2 ^ s * ((X / 2 ^ s % 2 ^ S + Y / 2 ^ s % 2 ^ S +
          (X % 2 ^ s + Y % 2 ^ s + carry) / 2 ^ s) % 2 ^ S) := by
  have hsum : X % 2 ^ (s + S) + Y % 2 ^ (s + S) + carry =
      X % 2 ^ s + Y % 2 ^ s + carry + 2 ^ s * (X / 2 ^ s % 2 ^ S + Y / 2 ^ s % 2 ^ S) := by
    rw [pow_add, Nat.mod_mul, Nat.mod_mul]
    ring
  rw [hsum, pow_add, Nat.mod_mul, Nat.add_mul_mod_self_left,
    Nat.add_mul_div_left _ _ (by positivity), Nat.add_comm (_ / _)]

/-- What a chunk adds to the sum when it is selected. -/
def selectStep (x y sum : ℕ) (chunk : Chunk × ℕ) : ℕ :=
  let (c, carry) := chunk
  let plain := (c.add (c.select x) (c.select y) 0).1
  sum ||| wrap ((c.add plain 0 carry).1 <<< c.offset)

/-- A selected chunk adds its part of the sum above the sum so far. -/
lemma selectStep_eq {c : Chunk} (hfit : c.offset + c.size ≤ wordBits) {x y sum carry : ℕ}
    (hsum : sum < 2 ^ c.offset) (hcarry : carry ≤ 1) :
    selectStep x y sum (c, carry) =
      sum + (c.select x + c.select y + carry) % 2 ^ c.size * 2 ^ c.offset := by
  have hsize : c.size ≤ wordBits := by omega
  have hplain : (c.select x + c.select y + 0) % 2 ^ c.size < 2 ^ c.size :=
    Nat.mod_lt _ (by positivity)
  have hpart : (c.select x + c.select y + carry) % 2 ^ c.size * 2 ^ c.offset < 2 ^ wordBits := by
    calc (c.select x + c.select y + carry) % 2 ^ c.size * 2 ^ c.offset
        < 2 ^ c.size * 2 ^ c.offset :=
          Nat.mul_lt_mul_of_pos_right (Nat.mod_lt _ (by positivity)) (by positivity)
      _ = 2 ^ (c.offset + c.size) := by rw [pow_add, Nat.mul_comm]
      _ ≤ 2 ^ wordBits := Nat.pow_le_pow_right (by omega) hfit
  rw [selectStep, Chunk.add_eq hsize (c.select_lt hsize x) (c.select_lt hsize y) (by omega),
    Chunk.add_eq hsize hplain (by positivity) hcarry, Nat.add_zero, Nat.add_zero,
    Nat.mod_add_mod, Nat.shiftLeft_eq, wrap_of_lt hpart, Nat.or_comm, ← Nat.shiftLeft_eq,
    ← Nat.shiftLeft_add_eq_or_of_lt hsum, Nat.shiftLeft_eq, Nat.add_comm]

/-- The invariant of the selection. From `offset` on, with a carry into the
first of the chunks, the selected sums make up the sum of the two numbers from
that bit on. -/
lemma foldl_select_eq (x y : ℕ) (chunks : List Chunk) {offset sum carry : ℕ}
    (hlaid : Contiguous offset chunks) (hfit : offset + (chunks.map (·.size)).sum ≤ wordBits)
    (hsum : sum < 2 ^ offset) (hcarry : carry ≤ 1) :
    (chunks.zip (carry :: resolveCarries carry (chunks.dropLast.map (·.carries x y)))).foldl
        (selectStep x y) sum =
      sum + (x / 2 ^ offset % 2 ^ (chunks.map (·.size)).sum +
        y / 2 ^ offset % 2 ^ (chunks.map (·.size)).sum + carry) %
          2 ^ (chunks.map (·.size)).sum * 2 ^ offset := by
  induction chunks generalizing offset sum carry with
  | nil => simp [Nat.mod_one]
  | cons c chunks ih =>
    obtain ⟨rfl, hlaid⟩ := hlaid
    simp only [List.map_cons, List.sum_cons] at hfit ⊢
    have hsize : c.size ≤ wordBits := by omega
    -- the carries into the chunks above do not depend on whether there are any
    have htail : chunks.zip (resolveCarries carry ((c :: chunks).dropLast.map (·.carries x y))) =
        chunks.zip (c.carryOut x y carry ::
          resolveCarries (c.carryOut x y carry) (chunks.dropLast.map (·.carries x y))) := by
      cases chunks with
      | nil => rfl
      | cons d chunks =>
        rw [List.dropLast_cons_cons, List.map_cons, resolveCarries_cons hsize x y hcarry]
    have hpart : (c.select x + c.select y + carry) % 2 ^ c.size < 2 ^ c.size :=
      Nat.mod_lt _ (by positivity)
    have hnext : sum + (c.select x + c.select y + carry) % 2 ^ c.size * 2 ^ c.offset <
        2 ^ (c.offset + c.size) := by
      rw [pow_add]
      nlinarith [Nat.two_pow_pos c.offset]
    rw [List.zip_cons_cons, List.foldl_cons, htail, selectStep_eq (by omega) hsum hcarry,
      ih hlaid (by omega) hnext (Chunk.carryOut_le_one hsize x y hcarry), add_mod_split,
      Chunk.carryOut, Chunk.select_eq hsize, Chunk.select_eq hsize, Nat.div_div_eq_div_mul,
      Nat.div_div_eq_div_mul, ← pow_add]
    ring

namespace ChunkPlan

/-- A carry-select addition by a plan whose chunks partition the width adds,
modulo the width. -/
lemma simulate_eq {p : ChunkPlan} (hplan : p.Partition) (hpos : 0 < p.width)
    (hwidth : p.width ≤ wordBits) (x y : ℕ) (cin : Bool) :
    p.simulate x y cin = .ok ((x + y + cin.toNat) % 2 ^ p.width) := by
  have hlaid := hplan.contiguous
  have hsum := hplan.sum_sizes
  have hcin : cin.toNat ≤ 1 := by cases cin <;> decide
  rw [simulate, if_neg (by omega)]
  rw [sizes] at hsum
  cases hchunks : p.chunks with
  | nil => simp [hchunks] at hsum; omega
  | cons first others =>
    rw [hchunks] at hlaid hsum
    obtain ⟨hoffset, hothers⟩ := hlaid
    simp only [List.map_cons, List.sum_cons] at hsum
    have hsize : first.size ≤ wordBits := by omega
    have hx := first.select_lt hsize x
    have hy := first.select_lt hsize y
    have hlow : (first.select x + first.select y + cin.toNat) % 2 ^ first.size <
        2 ^ (0 + first.size) := by
      rw [Nat.zero_add]
      exact Nat.mod_lt _ (by positivity)
    dsimp only
    rw [Chunk.add_eq hsize hx hy hcin]
    change Except.ok ((others.zip (first.carryOut x y cin.toNat ::
      resolveCarries (first.carryOut x y cin.toNat)
        (others.dropLast.map (·.carries x y)))).foldl (selectStep x y) _) = _
    rw [foldl_select_eq x y others hothers (by omega) hlow
        (Chunk.carryOut_le_one hsize x y hcin),
      Chunk.carryOut, Chunk.select_eq hsize, Chunk.select_eq hsize, hoffset, Nat.zero_add, pow_zero,
      Nat.div_one, Nat.div_one, Nat.mul_comm _ (2 ^ first.size), ← add_mod_split, hsum,
      Nat.add_mod (x % _ + y % _), ← Nat.add_mod x y, ← Nat.add_mod]

end ChunkPlan

end Datapath
