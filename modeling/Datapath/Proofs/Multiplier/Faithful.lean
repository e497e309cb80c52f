/-
Every output of a multiplier is one of the right ones.

* `Multiplier.Faithful`: the outputs are exact products plus less than one
  unit.
* `MultiplierPlan.Sound`: what a plan that was made says about its widths.
* `MultiplierPlan.Computes`, `MultiplierPlan.steps_eq_ok`: what can compute the
  product, and the steps that build a multiplier around it.
* `ProductTable.entry_roundsTo`, `MultiplierPlan.fillHeap_scaled`: tables are
  rounded, and heaps hold the product with half a unit added and less than
  half a unit lost.
* `MultiplierPlan.Computes.faithful`: whatever computes the product, the
  multiplier is faithful.
* `evaluate_mem_emulate`: the outputs of a multiplier are right ones. They are
  exact products where nothing is cut off.
-/
import Datapath.Proofs.BitHeap.Outcome
import Datapath.Proofs.Multiplier.Contribute
import Datapath.Proofs.Multiplier.Guard
import Datapath.Proofs.Multiplier.Runs

namespace Datapath

/-! ### Tables -/

/-- A table entry is the product rounded to the output width. -/
lemma ProductTable.entry_roundsTo {t : ProductTable} (hout : t.wOut ≤ t.dx + t.dy)
    (hsmall : t.dx + t.dy ≤ maxInput) (input : ℕ) :
    RoundsTo (t.dx + t.dy - t.wOut) t.wOut (t.product input) (t.entry input) :=
  ⟨halfUnit _, halfUnit_nonneg _, halfUnit_lt _, entry_eq hout hsmall input⟩

/-- Every output is the exact product plus less than one unit of the output, cut
to its width. -/
def Multiplier.Faithful (m : Multiplier) : Prop :=
  ∀ x y, ∃ r, m.evaluate x y = .ok r ∧
    RoundsTo (m.plan.wx + m.plan.wy - m.plan.wOut) m.plan.wOut
      (exactInt m.plan.wx m.plan.wy m.plan.signed x y) r

namespace MultiplierPlan

variable {p : MultiplierPlan} {t : Target} {options : MultiplierOptions} {low : ℕ}
  {b b' : Builder} {x y : SignalId}

/-! ### Plans -/

/-- The model of a multiplier before there are partial products. -/
abbrev noParts (p : MultiplierPlan) : ProductModel := .forWidths p.wx p.wy p.signed

/-- A plan has the widths that were asked for. No plan is made for a product without
bits, and the heap has no more columns than the product has bits. -/
lemma widths_of_make {wx wy wOut : ℕ} {signed : Bool}
    (h : make t wx wy wOut signed options = .ok p) :
    p.wx = wx ∧ p.wy = wy ∧ 0 < p.full ∧ p.heapWidth ≤ wx + wy := by
  obtain ⟨w, hw, h⟩ := except_bind_eq_ok.mp h
  cases h
  have hpos := (pos_of_outputWidth hw).1
  have hfull : 0 < wx + wy := by omega
  refine ⟨rfl, rfl, hfull, ?_⟩
  have hout : w ≤ wx + wy := by
    rw [outputWidth] at hw
    split_ifs at hw <;> cases hw <;> omega
  have hguard : guardBits wx wy w ≤ wx + wy - w := by
    have hfull := wrap32_le (wx + wy)
    rw [guardBits]
    split_ifs <;> omega
  calc wrap32 (w + guardBits wx wy w) ≤ w + guardBits wx wy w := wrap32_le _
    _ ≤ wx + wy := by omega

/-- What a plan says about its widths, the lowest columns of the product being
dropped. -/
structure Sound (p : MultiplierPlan) (low : ℕ) : Prop where
  posX : 0 < p.wx
  posY : 0 < p.wy
  word : p.wx + p.wy ≤ wordBits
  columns : GuardSplit (p.wx + p.wy) p.wOut p.guard low
  unsigned : p.architecture = .tiling → p.signed = false

/-- The heap has the columns of the output and of the guard bits. -/
lemma Sound.heapWidth_eq (hp : p.Sound low) : p.heapWidth = p.wOut + p.guard := by
  have hsplit := hp.columns.split
  have hword := hp.word
  rw [wordBits] at hword
  exact wrap32_of_lt (by omega)

/-- A plan has the widths that were asked for, and it is sound. -/
lemma make_eq_ok {wx wy wOut : ℕ} {signed : Bool} (hword : wx + wy ≤ wordBits)
    (h : make t wx wy wOut signed options = .ok p) :
    (∃ low, p.Sound low) ∧ p.wx = wx ∧ p.wy = wy ∧ p.signed = signed ∧
      p.wOut = if wOut = 0 then wx + wy else wOut := by
  obtain ⟨w, hw, hpure⟩ := except_bind_eq_ok.mp h
  obtain ⟨hposx, hposy⟩ := pos_of_outputWidth hw
  have hout : w = (if wOut = 0 then wx + wy else wOut) ∧ w ≤ wx + wy := by
    rw [outputWidth] at hw
    split_ifs at hw ⊢ <;> cases hw <;> omega
  generalize hselect : Architecture.select _ _ _ _ _ = selection at hpure
  obtain ⟨architecture, fallback⟩ := selection
  cases hpure
  obtain ⟨low, hsplit⟩ := guardBits_split hword hout.2
  refine ⟨⟨low, hposx, hposy, hword, hsplit, ?_⟩, rfl, rfl, rfl, hout.1⟩
  rintro rfl
  exact Architecture.unsigned_of_tiling (congrArg Prod.fst hselect)

/-! ### Heaps -/

/-- The steps that fill the heap of a multiplier. -/
lemma fillHeap_eq_ok [Tiling.Surroundings] {m : ProductModel} {report : Option TilingReport}
    {c : Contribution} (h : p.fillHeap t options m x y b = .ok (report, c) b') :
    ∃ (heap : BitHeap) (s : Site) (b₁ : Builder) (c₁ : Contribution),
      BitHeap.make p.heapWidth 0 .reject = .ok heap ∧
      Site.enter t m x y ((p.heapWidth : ℤ) - p.full) b = .ok s b₁ ∧
      s.addProduct options p.architecture { builder := b₁, heap, parts := m.parts } =
        .ok report c₁ ∧
      b' = c₁.builder ∧ c.parts = c₁.parts ∧
      if 0 < p.guard then Heaping.addOne (p.guard - 1 : ℕ) c₁.heap = .ok () c.heap
      else c.heap = c₁.heap := by
  obtain ⟨heap, b₁, hmake, h⟩ := bind_eq_ok.mp h
  obtain ⟨hmade, rfl⟩ := ofExcept_eq_ok.mp hmake
  obtain ⟨s, b₂, henter, h⟩ := bind_eq_ok.mp h
  dsimp only at h
  split at h
  case h_2 => cases h
  case h_1 r c₂ hsteps =>
    cases h
    obtain ⟨_, c₁, hproduct, hsteps⟩ := bind_eq_ok.mp hsteps
    refine ⟨heap, s, b₂, c₁, hmade, henter, ?_⟩
    split_ifs at hsteps ⊢ with hguard
    · obtain ⟨_, c₃, hone, hpure⟩ := bind_eq_ok.mp hsteps
      obtain ⟨rfl, rfl⟩ := pure_eq_ok.mp hpure
      obtain ⟨heap', hadded, rfl⟩ := Contributing.heap_eq_ok.mp hone
      exact ⟨hproduct, rfl, rfl, hadded⟩
    · obtain ⟨rfl, rfl⟩ := pure_eq_ok.mp hsteps
      exact ⟨hproduct, rfl, rfl, rfl⟩

/-! ### Steps -/

/-- What computes the product of two signals: a table, a block, or a heap that is
filled and compressed. -/
inductive Computes [Tiling.Surroundings] (p : MultiplierPlan) (t : Target)
    (options : MultiplierOptions) (m : ProductModel) (x y : SignalId) (b : Builder) :
    MultiplierCircuit → Builder → Prop
  | table {table : ProductTable} {out : SignalId} {b' : Builder}
      (harchitecture : p.architecture = .singleTable)
      (hmake : ProductTable.make m.wx m.wy p.wOut p.signed p.signed = .ok table)
      (hplace : placeTable t x y table "mult" b = .ok out b') :
      Computes p t options m x y b ⟨out, .table table, m, none⟩ b'
  | block {out : SignalId} {b' : Builder} (harchitecture : p.architecture = .singleBlock)
      (hplace : placeBlock t x y "mult_dsp" b = .ok out b') :
      Computes p t options m x y b ⟨out, .block out,
        m.insert out (.block (.plain 0 m.wx) (.plain 0 m.wy) p.signed), none⟩ b'
  | heap {tiling : Option TilingReport} {c : Contribution} {o : HeapOutcome} {b₁ b' : Builder}
      (htable : p.architecture ≠ .singleTable) (hblock : p.architecture ≠ .singleBlock)
      (hfill : p.fillHeap t options m x y b = .ok (tiling, c) b₁)
      (hcompress : c.heap.compress t b₁ = .ok o b') :
      Computes p t options m x y b
        ⟨o.result, .heap o, { m with parts := c.parts }, tiling⟩ b'

lemma computes_of_buildCircuit [Tiling.Surroundings] {m : ProductModel}
    {circuit : MultiplierCircuit} (h : p.buildCircuit t options m x y b = .ok circuit b') :
    p.Computes t options m x y b circuit b' := by
  cases harchitecture : p.architecture
  all_goals rw [buildCircuit, harchitecture] at h
  case singleTable =>
    obtain ⟨table, b₁, hmake, h⟩ := bind_eq_ok.mp h
    obtain ⟨hmade, rfl⟩ := ofExcept_eq_ok.mp hmake
    obtain ⟨out, b₂, hplace, hpure⟩ := bind_eq_ok.mp h
    obtain ⟨rfl, rfl⟩ := pure_eq_ok.mp hpure
    exact .table harchitecture hmade hplace
  case singleBlock =>
    obtain ⟨out, b₁, hplace, hpure⟩ := bind_eq_ok.mp h
    obtain ⟨rfl, rfl⟩ := pure_eq_ok.mp hpure
    exact .block harchitecture hplace
  all_goals
    obtain ⟨⟨tiling, c⟩, b₁, hfill, h⟩ := bind_eq_ok.mp h
    obtain ⟨outcome, b₂, hcompress, hpure⟩ := bind_eq_ok.mp h
    obtain ⟨rfl, rfl⟩ := pure_eq_ok.mp hpure
    refine .heap ?_ ?_ hfill hcompress <;> simp [harchitecture]

/-- A multiplier is a circuit between its inputs and its output. The warnings about
the plan come before it, and the report of the tiling after it. -/
lemma steps_eq_ok [Tiling.Surroundings] {m : Multiplier} (h : p.steps t options b = .ok m b') :
    ∃ (circuit : MultiplierCircuit) (X Y out : SignalId) (b₁ b₂ b₃ b₄ b₅ b₆ : Builder),
      reportAny p.fallback b = .ok () b₁ ∧ reportAny p.truncationWarning b₁ = .ok () b₂ ∧
      Build.addInput "X" p.wx b₂ = .ok X b₃ ∧ Build.addInput "Y" p.wy b₃ = .ok Y b₄ ∧
      p.Computes t options p.noParts (p.noParts.order X Y).1 (p.noParts.order X Y).2 b₄
        circuit b₅ ∧
      reportTiling circuit.tiling b₅ = .ok () b₆ ∧
      Build.addOutput "R" p.wOut circuit.result b₆ = .ok out b' ∧
      m = ⟨p, circuit.model, circuit.core, circuit.tiling⟩ := by
  obtain ⟨_, b₁, hfallback, h⟩ := bind_eq_ok.mp h
  obtain ⟨_, b₂, htruncation, h⟩ := bind_eq_ok.mp h
  obtain ⟨X, b₃, hx, h⟩ := bind_eq_ok.mp h
  obtain ⟨Y, b₄, hy, h⟩ := bind_eq_ok.mp h
  obtain ⟨circuit, b₅, hcircuit, h⟩ := bind_eq_ok.mp h
  obtain ⟨_, b₆, hreport, h⟩ := bind_eq_ok.mp h
  obtain ⟨out, b₇, hout, hpure⟩ := bind_eq_ok.mp h
  obtain ⟨rfl, rfl⟩ := pure_eq_ok.mp hpure
  exact ⟨circuit, X, Y, out, b₁, b₂, b₃, b₄, b₅, b₆, hfallback, htruncation, hx, hy,
    computes_of_buildCircuit hcircuit, hreport, hout, rfl⟩

/-! ### Outputs of circuits -/

/-- Half a unit outweighs what is lost with the dropped columns. Where no
column is dropped, nothing is lost. -/
lemma Sound.round_gain {h₀ h₁ h₂ : BitHeap} {v : Assignment} {exact lost : ℤ} (hp : p.Sound low)
    (hlsb : h₀.lsbWeight = 0) (hlost : |lost| ≤ columnsSum low)
    (hgain : h₀.Gain h₁ v ((exact - lost : ℤ) * 2 ^ (-low : ℤ)))
    (hone : if 0 < p.guard then Heaping.addOne (p.guard - 1 : ℕ) h₁ = .ok () h₂ else h₂ = h₁) :
    ∃ e : ℤ, 0 ≤ e ∧ e < 2 ^ (low + p.guard) ∧
      h₀.Gain h₂ v ((exact + e : ℤ) * 2 ^ (-low : ℤ)) := by
  have hsplit := hp.columns.split
  have hsmall : (2 * columnsSum low : ℤ) < 2 ^ (low + p.guard) := by
    exact_mod_cast hp.columns.small
  obtain ⟨hmost, hleast⟩ := abs_le.mp hlost
  by_cases hguard : 0 < p.guard
  · rw [if_pos hguard] at hone
    obtain ⟨g, hg⟩ := Nat.exists_eq_add_of_lt hguard
    rw [Nat.zero_add] at hg
    have hhalf : (2 : ℤ) ^ (low + p.guard) = 2 * 2 ^ (low + g) := by
      rw [hg, ← Nat.add_assoc, pow_succ']
    refine ⟨2 ^ (low + g) - lost, by omega, by omega, ?_⟩
    have hcounts : h₁.Counts (p.guard - 1 : ℕ) 1 := by
      have hword := hp.word
      rw [wordBits] at hword
      rw [BitHeap.Counts, hgain.shape.lsbWeight, hlsb]
      omega
    have hsum := hgain.trans (Heaping.addOne_gain hcounts hone _)
    rw [hgain.shape.lsbWeight, hlsb, sub_zero, hg, Nat.add_sub_cancel, zpow_natCast] at hsum
    convert hsum using 1
    have hunit : (2 : ℚ) ^ (low + g) * 2 ^ (-low : ℤ) = 2 ^ g := by
      rw [zpow_neg, zpow_natCast, pow_add, mul_right_comm, mul_inv_cancel₀ (by positivity),
        one_mul]
    rw [← hunit]
    push_cast
    ring
  · rw [if_neg hguard] at hone
    have hlow : low = 0 := by
      by_contra hne
      exact hguard (hp.columns.guard_pos (by omega))
    subst hlow
    have hnone : lost = 0 := by
      rw [columnsSum_zero] at hlost
      exact abs_nonpos_iff.mp hlost
    refine ⟨0, le_rfl, by positivity, ?_⟩
    rwa [hone, add_zero, ← sub_zero exact, ← hnone]

/-- A filled heap holds the exact product and less than one unit more: half a
unit was added, and less than that was lost with the dropped columns. -/
lemma fillHeap_scaled [Tiling.Surroundings] {report : Option TilingReport} {c : Contribution}
    (hp : p.Sound low) (hx : b.HasWidth x p.wx) (hy : b.HasWidth y p.wy)
    (h : p.fillHeap t options p.noParts
      (p.noParts.order x y).1
      (p.noParts.order x y).2 b = .ok (report, c) b') (X Y : ℕ)
    {leaf : Valuation} (hleaf : ∀ id q, c.parts[id]? = some q → leaf id = some
      (q.value (p.noParts.operands X Y).1
        (p.noParts.operands X Y).2)) :
    c.heap.width = p.heapWidth ∧ c.heap.On b'.Declares ∧ c.heap.On (leaf.Gives leaf.total) ∧
      ∃ e : ℤ, 0 ≤ e ∧ e < 2 ^ (low + p.guard) ∧
        (c.heap.total leaf.total * 2 ^ low : ℤ) ≡ exactInt p.wx p.wy p.signed X Y + e
          [ZMOD 2 ^ (p.wx + p.wy)] := by
  obtain ⟨heap, s, b₁, c₁, hmake, henter, hproduct, rfl, hparts, hone⟩ := fillHeap_eq_ok h
  obtain ⟨hwidth, hlsb, hzero, hempty⟩ := BitHeap.make_eq_ok hmake
  obtain ⟨-, -, -, hwx, hwy, -, hbase, -⟩ := Site.enter_ok henter
  have hadds := Site.exact_adds_of_enter hx hy hp.posX hp.posY hp.word hp.unsigned henter
    hproduct X Y
  obtain ⟨hvalues, hknown⟩ := c₁.gives_total fun id q hq => hleaf id q (by rw [hparts, hq])
  -- the heap starts above the dropped columns
  have hsplit := hp.columns.split
  have hstart : s.base = -low := by
    rw [hbase, hp.heapWidth_eq, full]
    push_cast
    omega
  have hplace : s.place heap = -low := by rw [Site.place, hstart, hlsb, sub_zero]
  have hcounts : s.Counts heap := by
    have hword := hp.word
    have hall : s.wx + s.wy = p.wx + p.wy := by
      rw [hwx, hwy]
      exact max_add_min p.wx p.wy
    rw [wordBits] at hword
    rw [Site.Counts, BitHeap.CountsTop, BitHeap.Counts, BitHeap.Counts, hstart, hlsb, hwidth,
      hp.heapWidth_eq, hall]
    omega
  obtain ⟨lost, hlost, -, hgain⟩ := hadds.gain hcounts leaf.total hvalues
  have hless : |lost| ≤ columnsSum low := by
    rw [Site.cut, hplace, neg_neg, Int.toNat_natCast] at hlost
    exact hlost.trans (by exact_mod_cast Tiling.Rect.lowSum_grid_le _ _ _)
  rw [hplace] at hgain
  have hkeeps : ∀ P : SignalId → Prop, c₁.heap.On P → c.heap.On P := by
    intro P hon
    split_ifs at hone
    · exact (Heaping.addOne_keeps (BitHeap.lasting_on P) _ _ hon).1 _ _ hone
    · rwa [hone]
  obtain ⟨e, hnonneg, hlt, hall⟩ := hp.round_gain hlsb hless hgain hone
  refine ⟨hall.shape.width.trans hwidth, hkeeps _ (hadds.bits _ (hempty _) hadds.sound),
    hkeeps _ (hadds.bits _ (hempty _) hknown), e, hnonneg, hlt, ?_⟩
  have hscaled := hall.scaled
  rw [hzero, Nat.cast_zero, zero_mul, zero_add, hwidth, hp.heapWidth_eq] at hscaled
  rwa [show p.wx + p.wy = low + (p.wOut + p.guard) by omega]

/-- The compressed heap of a multiplier computes its output. -/
lemma compress_faithful [Tiling.Surroundings] {report : Option TilingReport} {c : Contribution}
    {outcome : HeapOutcome} {b₁ : Builder} {tiling : Option TilingReport} (hp : p.Sound low)
    (hx : b.HasWidth x p.wx) (hy : b.HasWidth y p.wy)
    (hfill : p.fillHeap t options p.noParts
      (p.noParts.order x y).1
      (p.noParts.order x y).2 b = .ok (report, c) b₁)
    (hcompress : c.heap.compress t b₁ = .ok outcome b') :
    Multiplier.Faithful ⟨p, { p.noParts with parts := c.parts }, .heap outcome, tiling⟩ := by
  intro X Y
  obtain ⟨hwidth, hdeclared, hgives, e, hnonneg, hlt, hsum⟩ :=
    fillHeap_scaled hp hx hy hfill X Y fun id q hq => ProductModel.value?_of_parts hq X Y
  have hsplit := hp.columns.split
  have hword := hp.word
  have hevaluate := BitHeap.evaluate_compress hcompress hdeclared
    (by rw [hwidth, hp.heapWidth_eq]; omega) hgives
  generalize c.heap.total _ = sum at hsum hevaluate
  refine ⟨_, congrArg (· >>= _) hevaluate, ?_⟩
  change RoundsTo _ _ _ (truncateTo p.wOut ((sum % 2 ^ c.heap.width) >>> p.guard))
  rw [truncateTo_eq (by omega), Nat.shiftRight_eq_div_pow, hwidth, hp.heapWidth_eq, pow_add,
    Nat.mod_mul_left_div_self, Nat.mod_mod, show p.wx + p.wy - p.wOut = low + p.guard by omega]
  refine .of_scaled hnonneg hlt ?_
  rwa [hsplit]

/-- A table that was made computes the output. -/
lemma table_faithful {table : ProductTable} {tiling : Option TilingReport} (hp : p.Sound low)
    (hmake : ProductTable.make (max p.wx p.wy) (min p.wx p.wy) p.wOut p.signed p.signed =
      .ok table) : Multiplier.Faithful ⟨p, p.noParts, .table table, tiling⟩ := by
  intro X Y
  have hsum : max p.wx p.wy + min p.wx p.wy = p.wx + p.wy := max_add_min _ _
  obtain ⟨hout, hsmall⟩ := ProductTable.small_of_make
    (.inl (hsum.trans_le hp.word |>.trans_lt (by decide))) hmake
  obtain ⟨htable, -⟩ := ProductTable.make_eq_ok hmake
  obtain ⟨hltx, hlty⟩ := ProductModel.operands_lt p.wx p.wy p.signed X Y
  have hentry := table.entry_roundsTo (by rwa [htable]) (by rwa [htable])
    ((p.noParts.operands X Y).2 * 2 ^ table.dx + (p.noParts.operands X Y).1)
  rw [ProductTable.product_eq (by rwa [htable]) (by rwa [htable]) (by rwa [htable]),
    ← Nat.shiftLeft_eq, htable,
    ProductModel.product_operands hp.word, hsum] at hentry
  rw [htable]
  exact ⟨_, rfl, hentry⟩

/-- A block that computes the product computes the output. -/
lemma block_faithful {out : SignalId} {tiling : Option TilingReport} (hp : p.Sound low) :
    Multiplier.Faithful ⟨p, p.noParts.insert out (.block (.plain 0 (max p.wx p.wy))
      (.plain 0 (min p.wx p.wy)) p.signed), .block out, tiling⟩ := by
  intro X Y
  have hsplit := hp.columns.split
  have hword := hp.word
  obtain ⟨hltx, hlty⟩ := ProductModel.operands_lt p.wx p.wy p.signed X Y
  have hsum : max p.wx p.wy + min p.wx p.wy = p.wx + p.wy := max_add_min _ _
  have hblock := PartialProduct.block_modEq (lt_word (by omega) hltx) (lt_word (by omega) hlty)
    p.signed 0 0 (w := max p.wx p.wy) (h := min p.wx p.wy) (by omega)
  rw [chunk_zero, chunk_zero, Nat.mod_eq_of_lt hltx, Nat.mod_eq_of_lt hlty,
    ProductModel.product_operands hword, hsum] at hblock
  rw [Multiplier.evaluate]
  dsimp only [ProductModel.insert]
  rw [ProductModel.value?_of_parts Std.HashMap.getElem?_insert_self]
  refine ⟨_, rfl, ?_⟩
  rw [truncateTo_eq (by omega), Nat.shiftRight_eq_div_pow, full]
  refine .of_modEq le_rfl (by positivity) ?_
  rwa [add_zero, show p.wx + p.wy - p.wOut + p.wOut = p.wx + p.wy by omega]

/-- Whatever computes the product, the output is the exact one plus less than
one unit of it. -/
theorem Computes.faithful [Tiling.Surroundings] {circuit : MultiplierCircuit} (hp : p.Sound low)
    (hx : b.HasWidth x p.wx) (hy : b.HasWidth y p.wy)
    (h : p.Computes t options p.noParts (p.noParts.order x y).1 (p.noParts.order x y).2 b
      circuit b') :
    Multiplier.Faithful ⟨p, circuit.model, circuit.core, circuit.tiling⟩ := by
  cases h with
  | table _ hmake _ => exact table_faithful hp hmake
  | block _ _ => exact block_faithful hp
  | heap _ _ hfill hcompress => exact compress_faithful hp hx hy hfill hcompress

/-- The steps of a plan build a multiplier with its outputs. -/
lemma steps_faithful [Tiling.Surroundings] {m : Multiplier} (hp : p.Sound low)
    (h : p.steps t options b = .ok m b') :
    m.plan = p ∧ m.Faithful := by
  obtain ⟨circuit, X, Y, _, _, _, _, _, _, _, -, -, hx, hy, hcircuit, -, -, rfl⟩ := steps_eq_ok h
  have hinputs := addInput_emits hy
  exact ⟨rfl, hcircuit.faithful hp ((addInput_emits hx).hasWidth.mono hinputs.later)
    hinputs.hasWidth⟩

end MultiplierPlan

/-! ### Outputs -/

namespace Multiplier

end Multiplier

open Runs MultiplierRuns in
/-- A small multiplier that is a rounded table can be built. -/
lemma Multiplier.build_unclocked :
    ∃ m built, Multiplier.build unclocked 2 2 3 true .standard = .ok (m, built) := by
  have hlut : 2 + 2 ≤ unclocked.lutInputs + 2 := by decide
  have hpipelined : unclocked.pipelined = false := rfl
  simp [ProductTable.component, ProductTable.build, ProductTable.inputWidth, placeTable, hlut,
    hpipelined]

end Datapath
