/-
Products made of blocks and tables.

* `placeStages_adds`, `addUp_adds`: the blocks of a cascade hold the products
  on their rectangles, and the last adder holds the sum of them.
* `addCascade_adds`: a cascade adds the products of its blocks. The sum is the
  product on the whole stack, so the bits that the last adder has are enough
  for it.
* `blocks_of_findTiling`, `fills_of_findTiling`: a tiling that is found has its
  blocks at the right places, and it has passed its check, so it fills the grid.
* `addTiling_adds`: cascades and tables that fill the grid add the product.
-/
import Datapath.Product.Tiled
import Datapath.Proofs.Product.Tables
import Datapath.Proofs.Tiling.Best
import Datapath.Proofs.Tiling.Chains
import Datapath.Proofs.Tiling.Correct

namespace Datapath

namespace Site

variable {s : Site} {c c' : Contribution} {a b : ℕ} {label : String}

/-! ### Blocks of a cascade -/

/-- The term of a block in a cascade that starts at weight `lowest`. -/
def blockTerm (lowest : ℕ) (p : Tiling.Placement) : CascadeTerm :=
  ⟨.plain p.rect.x p.rect.width, .plain p.rect.y p.rect.height, p.weight - lowest⟩

/-- The block of a stage is there, and so is its product. -/
structure Placed (lowest : ℕ) (c : Contribution) (p : Tiling.Placement) (stage : Stage) :
    Prop where
  term : stage.term = blockTerm lowest p
  hasWidth : c.builder.HasWidth stage.product (p.rect.width + p.rect.height)
  part : c.parts[stage.product]? =
    some (.block (.plain p.rect.x p.rect.width) (.plain p.rect.y p.rect.height) false)

lemma Placed.mono {lowest : ℕ} {p : Tiling.Placement} {stage : Stage} {full : ℤ} {loss : ℕ}
    (h : Placed lowest c p stage) (hadds : s.Adds c c' a b full loss) :
    Placed lowest c' p stage :=
  ⟨h.term, h.hasWidth.mono hadds.builder, hadds.parts _ _ h.part⟩

/-- A block on some bits of the operands is a new signal. -/
lemma fields_emits {x y : OperandField} {product : SignalId} {bld bld' : Builder}
    (h : (do
      s.readOperands
      let xs ← Build.declare s!"{label}_X" x.width
      let ys ← Build.declare s!"{label}_Y" y.width
      placeBlock s.target xs ys label : Build SignalId) bld = .ok product bld') :
    bld.Emits bld' product (x.width + y.width) := by
  obtain ⟨_, b₁, hread, h⟩ := bind_eq_ok.mp h
  obtain ⟨xs, b₂, hxs, h⟩ := bind_eq_ok.mp h
  obtain ⟨ys, b₃, hys, h⟩ := bind_eq_ok.mp h
  have hx := Builder.Emits.of_declare hxs
  have hy := Builder.Emits.of_declare hys
  exact (placeBlock_emits (hx.hasWidth.mono hy.later) hy.hasWidth h).after
    ((s.readOperands_rising hread).trans (hx.later.trans hy.later))

lemma placeFields_adds {x y : OperandField} {product : SignalId} (hsound : c.Sound)
    (h : s.placeFields label x y c = .ok product c') :
    s.Adds c c' a b 0 0 ∧ c'.builder.HasWidth product (x.width + y.width) ∧
      c'.parts[product]? = some (.block x y false) := by
  obtain ⟨id, c₁, hbuild, hrest⟩ := bind_eq_ok.mp h
  obtain ⟨_, c₂, hrecord, hpure⟩ := bind_eq_ok.mp hrest
  obtain ⟨rfl, rfl⟩ := pure_eq_ok.mp hpure
  exact Adds.emit hsound hbuild hrecord fun _ => fields_emits

/-- The blocks of a cascade are placed one after the other. -/
lemma placeStages_adds {lowest k : ℕ} {ready ready' : Instant} {ps : List Tiling.Placement}
    {stages : List Stage} (hsound : c.Sound)
    (h : s.placeStages label lowest k ready ps c = .ok (stages, ready') c') :
    s.Adds c c' a b 0 0 ∧ List.Forall₂ (Placed lowest c') ps stages := by
  induction ps generalizing c k ready stages with
  | nil =>
    obtain ⟨hstages, rfl⟩ := pure_eq_ok.mp h
    cases hstages
    exact ⟨.none hsound, .nil⟩
  | cons p ps ih =>
    obtain ⟨product, c₁, hplace, hrest⟩ := bind_eq_ok.mp h
    obtain ⟨now, c₂, hnow, hrest⟩ := bind_eq_ok.mp hrest
    obtain ⟨⟨others, ready₁⟩, c₃, hothers, hpure⟩ := bind_eq_ok.mp hrest
    obtain ⟨hstages, rfl⟩ := pure_eq_ok.mp hpure
    cases hstages
    obtain ⟨hfirst, hwidth, hpart⟩ := placeFields_adds (a := a) (b := b) hsound hplace
    have hwait := Adds.build (s := s) (x := a) (y := b) hfirst.sound Build.now_rising hnow
    obtain ⟨hrest, hplaced⟩ := ih hwait.sound hothers
    have hall := hfirst.trans (hwait.trans hrest)
    simp only [add_zero] at hall
    have hp : Placed lowest c₁ p ⟨product, _, _, p.weight - lowest⟩ := ⟨rfl, hwidth, hpart⟩
    exact ⟨hall, .cons ((hp.mono hwait).mono hrest) hplaced⟩

/-- The last adder of a cascade holds the sum of all terms. -/
lemma addUp_adds {width k : ℕ} {terms : List CascadeTerm} {sum out : SignalId}
    {stages : List Stage} (hsound : c.Sound)
    (h : s.addUp label width k terms sum stages c = .ok out c') :
    s.Adds c c' a b 0 0 ∧ (stages ≠ [] → c'.builder.HasWidth out width ∧
      c'.parts[out]? = some (.cascade (terms ++ stages.map (·.term)))) := by
  induction stages generalizing c k terms sum with
  | nil =>
    obtain ⟨rfl, rfl⟩ := pure_eq_ok.mp h
    exact ⟨.none hsound, fun hne => absurd rfl hne⟩
  | cons stage stages ih =>
    obtain ⟨next, c₁, hplace, hrest⟩ := bind_eq_ok.mp h
    obtain ⟨_, c₂, hrecord, hrest⟩ := bind_eq_ok.mp hrest
    obtain ⟨hfirst, hwidth, hpart⟩ := Adds.emit (s := s) (x := a) (y := b) hsound hplace hrecord
      fun _ => placePostAdder_emits
    obtain ⟨hothers, hlast⟩ := ih hfirst.sound hrest
    refine ⟨by simpa using hfirst.trans hothers, fun _ => ?_⟩
    cases stages with
    | nil =>
      obtain ⟨rfl, rfl⟩ := pure_eq_ok.mp hrest
      exact ⟨hwidth, hpart⟩
    | cons second stages =>
      rw [List.map_cons, List.append_cons]
      exact hlast (List.cons_ne_nil _ _)

/-! ### Cascades -/

/-- The rectangle lies in the grid of the product. -/
def Holds (s : Site) (r : Tiling.Rect) : Prop := r.Within ⟨s.wx, s.wy⟩

lemma Holds.le {r : Tiling.Rect} (h : s.Holds r) :
    r.x + r.width ≤ s.wx ∧ r.y + r.height ≤ s.wy := h

/-- The blocks of a cascade make up a rectangle in the grid. -/
lemma stack_le {p : Tiling.Placement} {ps : List Tiling.Placement}
    (hstack : ((p :: ps).map (·.rect)).IsChain Tiling.Rect.Above)
    (hholds : ∀ r ∈ (p :: ps).map (·.rect), s.Holds r) :
    p.rect.x + p.rect.width ≤ s.wx ∧
      p.rect.y + (Tiling.stack p.rect (ps.map (·.rect))).height ≤ s.wy := by
  have hstacked : s.Holds (Tiling.stack p.rect (ps.map (·.rect))) :=
    Tiling.stack_within (by simpa using hstack) hholds
  exact hstacked.le

/-- A signal that holds the product on a rectangle adds it, if it has bits
enough. -/
lemma addRect_adds {id : SignalId} {p : PartialProduct} {r : Tiling.Rect} {weight width : ℕ}
    (hsound : c.Sound) (hid : c.builder.HasWidth id width) (hp : c.parts[id]? = some p)
    (hvalue : p.value a b = r.product a b) (hweight : weight = r.x + r.y)
    (hin : weight + width ≤ s.wx + s.wy) (hwidth : r.width + r.height ≤ width)
    (hword : width ≤ wordBits) (h : s.addOperand id weight false c = .ok () c') :
    s.Adds c c' a b ((r.product a b * 2 ^ (r.x + r.y) : ℕ) : ℤ) (r.lowSum (s.cut c.heap)) := by
  have hlt : r.product a b < 2 ^ width :=
    (r.product_lt a b).trans_le (Nat.pow_le_pow_right (by norm_num) hwidth)
  have hput := Adds.put_top (r := r) (x := a) (y := b) hsound (addBits_of_addOperand hid h) hp
    hweight hin (fun _ => rfl) hword (by rw [hvalue, digitValue_of_lt hlt]; rfl)
    (by rw [Nat.abs_cast]; exact_mod_cast r.product_le a b) (hwidth.trans (Nat.le_succ _))
    (.inr (by rw [hvalue])) fun _ => Int.natCast_nonneg _
  rw [hweight] at hput
  exact_mod_cast hput

lemma terms_of_placed (lowest : ℕ) {ps : List Tiling.Placement} {stages : List Stage}
    (h : List.Forall₂ (Placed lowest c) ps stages) :
    stages.map (·.term) = ps.map (blockTerm lowest) := by
  induction h with
  | nil => rfl
  | cons hp _ ih => rw [List.map_cons, List.map_cons, hp.term, ih]

/-- The terms of a cascade add up to the product on its stack. -/
lemma cascadeSum_eq {p : Tiling.Placement} {ps : List Tiling.Placement} (ha : a < 2 ^ wordBits)
    (hb : b < 2 ^ wordBits) (hstack : ((p :: ps).map (·.rect)).IsChain Tiling.Rect.Above) :
    PartialProduct.cascadeSum a b ((p :: ps).map (blockTerm p.weight)) =
      (Tiling.stack p.rect (ps.map (·.rect))).product a b := by
  refine Nat.eq_of_mul_eq_mul_right (Nat.two_pow_pos (p.rect.x + p.rect.y)) ?_
  rw [Tiling.stack_product hstack, PartialProduct.cascadeSum, List.map_map, ← List.map_cons,
    List.map_map, ← List.sum_map_mul_right]
  refine congrArg List.sum (List.map_congr_left fun q hq => ?_)
  have hle := Tiling.le_corner_of_stacked hstack (List.mem_map_of_mem hq)
  dsimp only [Function.comp_apply, blockTerm]
  rw [OperandField.plain_value ha, OperandField.plain_value hb, Nat.mul_assoc, ← pow_add,
    Tiling.Placement.weight, Tiling.Placement.weight, Nat.sub_add_cancel hle]
  rfl

/-- A cascade holds the product on its stack. -/
lemma cascade_value {p : Tiling.Placement} {ps : List Tiling.Placement} (ho : s.Operands a b)
    (hstack : ((p :: ps).map (·.rect)).IsChain Tiling.Rect.Above)
    (hholds : ∀ r ∈ (p :: ps).map (·.rect), s.Holds r) :
    (PartialProduct.cascade ((p :: ps).map (blockTerm p.weight))).value a b =
      (Tiling.stack p.rect (ps.map (·.rect))).product a b := by
  obtain ⟨ha, hb⟩ := ho.ltWord
  have hword := ho.word
  have hle := stack_le hstack hholds
  have hsum := cascadeSum_eq ha hb hstack
  rw [PartialProduct.cascade_value ?_ ?_, hsum]
  · intro t ht
    obtain ⟨q, hq, rfl⟩ := List.mem_map.mp ht
    have hqle := (hholds q.rect (List.mem_map_of_mem hq)).le
    rcases Nat.eq_zero_or_pos q.rect.width with hzero | hpos
    · -- a block without columns may lie at the far corner
      right
      dsimp only [blockTerm]
      rw [OperandField.plain_value ha, hzero, chunk, pow_zero, Nat.mod_one, Nat.zero_mul]
    · left
      dsimp only [blockTerm, Tiling.Placement.weight]
      omega
  · rw [hsum]
    refine (Tiling.Rect.product_lt _ a b).trans_le (Nat.pow_le_pow_right (by norm_num) ?_)
    change p.rect.width + _ ≤ _
    omega

/-- A cascade adds the products of its blocks. -/
lemma addCascade_adds {n : ℕ} {blocks : List Tiling.Placement} (hsound : c.Sound)
    (ho : s.Operands a b) (hstack : (blocks.map (·.rect)).IsChain Tiling.Rect.Above)
    (hholds : ∀ r ∈ blocks.map (·.rect), s.Holds r) (h : s.addCascade n blocks c = .ok () c') :
    s.Adds c c' a b
      (((blocks.map (·.rect)).map fun r => r.product a b * 2 ^ (r.x + r.y)).sum : ℕ)
      ((blocks.map (·.rect)).map fun r => r.lowSum (s.cut c.heap)).sum := by
  obtain ⟨ha, hb⟩ := ho.ltWord
  have hword := ho.word
  obtain ⟨⟨stages, ready⟩, c₁, hplace, hrest⟩ := bind_eq_ok.mp h
  obtain ⟨hstages, hplaced⟩ := placeStages_adds (a := a) (b := b) hsound hplace
  cases hplaced with
  | nil =>
    obtain ⟨-, rfl⟩ := pure_eq_ok.mp hrest
    exact hstages
  | @cons p first ps others hfirst hothers =>
    have hp := (hholds p.rect List.mem_cons_self).le
    cases hothers with
    | nil =>
      have hvalue : (PartialProduct.block (.plain p.rect.x p.rect.width)
          (.plain p.rect.y p.rect.height) false).value a b = p.rect.product a b :=
        PartialProduct.block_value ha hb (by omega)
      have hadd := hstages.trans
        (addRect_adds hstages.sound hfirst.hasWidth hfirst.part hvalue rfl
          (by omega) le_rfl (by omega) hrest)
      simpa [cut_of_sameShape hstages.shape] using hadd
    | @cons q second ps others hsecond hothers =>
      obtain ⟨_, c₂, hbuild, hrest⟩ := bind_eq_ok.mp hrest
      obtain ⟨sum, c₃, hsum, hadd⟩ := bind_eq_ok.mp hrest
      have hready := Adds.build (s := s) (x := a) (y := b) hstages.sound
        ((Build.addSubcomponent_rising _).bind fun _ => Build.moveTo_rising _) hbuild
      obtain ⟨hup, hlast⟩ := addUp_adds (a := a) (b := b) hready.sound hsum
      obtain ⟨hwidth, hpart⟩ := hlast (List.cons_ne_nil _ _)
      have hle := stack_le hstack hholds
      have hvalue := cascade_value ho hstack hholds
      rw [← terms_of_placed p.weight (.cons hfirst (.cons hsecond hothers))] at hvalue
      have henough : p.rect.width + (Tiling.stack p.rect ((q :: ps).map (·.rect))).height ≤
          s.wx + s.wy - (p.rect.x + p.rect.y) := by omega
      have hsums := addRect_adds hup.sound hwidth hpart hvalue rfl
        (Nat.add_sub_of_le (a := p.rect.x + p.rect.y) (by omega)).le henough
        ((Nat.sub_le _ _).trans hword) hadd
      have hshape := (hstages.shape.trans hready.shape).trans hup.shape
      convert hstages.trans (hready.trans (hup.trans hsums)) using 1
      · rw [zero_add, zero_add, zero_add]
        exact congrArg _ (Tiling.stack_product (by simpa using hstack) a b).symm
      · rw [Nat.zero_add, Nat.zero_add, Nat.zero_add, cut_of_sameShape hshape]
        exact (Tiling.sum_stack (by simpa using hstack) _).symm

/-- Cascades add the products of all their blocks. -/
lemma addCascades_adds {ps : Array Tiling.Placement} {n : ℕ} {heads : List ℕ} (hsound : c.Sound)
    (ho : s.Operands a b)
    (hstack : ∀ i ∈ heads, ((Tiling.cascade ps i).map (·.rect)).IsChain Tiling.Rect.Above)
    (hholds : ∀ r ∈ heads.flatMap fun i => (Tiling.cascade ps i).map (·.rect), s.Holds r)
    (h : s.addCascades ps n heads c = .ok () c') :
    s.Adds c c' a b
      (((heads.flatMap fun i => (Tiling.cascade ps i).map (·.rect)).map
        fun r => r.product a b * 2 ^ (r.x + r.y)).sum : ℕ)
      ((heads.flatMap fun i => (Tiling.cascade ps i).map (·.rect)).map
        fun r => r.lowSum (s.cut c.heap)).sum := by
  induction heads generalizing c n with
  | nil =>
    obtain ⟨-, rfl⟩ := pure_eq_ok.mp h
    exact .none hsound
  | cons i heads ih =>
    obtain ⟨_, c₁, hcascade, hrest⟩ := bind_eq_ok.mp h
    obtain ⟨hi, hheads⟩ := List.forall_mem_cons.mp hstack
    rw [List.flatMap_cons] at hholds
    obtain ⟨hfirst, hothers⟩ := List.forall_mem_append.mp hholds
    have hadd := addCascade_adds hsound ho hi hfirst hcascade
    have hall := hadd.trans (ih hadd.sound hheads hothers hrest)
    rw [cut_of_sameShape hadd.shape] at hall
    rw [← Nat.cast_add] at hall
    rwa [List.flatMap_cons, List.map_append, List.sum_append, List.map_append, List.sum_append]

/-! ### Tables beside the blocks -/

/-- Tables add the products of rectangles. -/
lemma addRegions_adds {rects : List Tiling.Rect} (hsound : c.Sound) (ho : s.Operands a b)
    (hs : s.signed = false) (hholds : ∀ r ∈ rects, s.Holds r)
    (h : s.addRegions rects c = .ok () c') :
    s.Adds c c' a b ((rects.map fun r => r.product a b * 2 ^ (r.x + r.y)).sum : ℕ)
      (rects.map fun r => r.lowSum (s.cut c.heap)).sum := by
  induction rects generalizing c with
  | nil =>
    obtain ⟨-, rfl⟩ := pure_eq_ok.mp h
    exact .none hsound
  | cons r rects ih =>
    obtain ⟨_, c₁, htables, hrest⟩ := bind_eq_ok.mp h
    obtain ⟨hr, hrects⟩ := List.forall_mem_cons.mp hholds
    have hadd := addTables_adds hsound ho hr htables
    have hproduct : chunkNumber false a r.x r.width * chunkNumber false b r.y r.height *
        2 ^ (r.x + r.y) = ((r.product a b * 2 ^ (r.x + r.y) : ℕ) : ℤ) := by
      push_cast [Tiling.Rect.product]
      rfl
    have hall := hadd.trans (ih hadd.sound hrects hrest)
    rw [cut_of_sameShape hadd.shape, hs, hproduct, ← Nat.cast_add] at hall
    exact hall

/-- A tiling that is found comes of a search, and has passed its check. -/
lemma findTiling_eq_ok [Tiling.Surroundings] {options : MultiplierOptions} {o : Tiling.Outcome}
    (h : s.findTiling options = .ok o) :
    ∃ problem, Tiling.Problem.make ⟨s.wx, s.wy⟩
        ⟨(s.target.blockWidths false).1, (s.target.blockWidths false).2⟩ options.blockRatio
        (tableFields s.target) = .ok problem ∧
      o = (Tiling.Search.start problem options.budget Tiling.Surroundings.clock).run
        options.strategy ∧
      o.best.validate = .ok () := by
  obtain ⟨problem, hmake, hrest⟩ := except_bind_eq_ok.mp h
  refine ⟨problem, hmake, ?_⟩
  dsimp only at hrest
  split_ifs at hrest with hoverrun
  · obtain ⟨_, hthrow, -⟩ := except_bind_eq_ok.mp hrest
    cases hthrow
  · obtain ⟨_, hvalidate, hpure⟩ := except_bind_eq_ok.mp hrest
    cases hpure
    exact ⟨rfl, hvalidate⟩

/-- It is made of candidates, the blocks in the grid of the product. -/
lemma blocks_of_findTiling [Tiling.Surroundings] {options : MultiplierOptions} {o : Tiling.Outcome}
    (h : s.findTiling options = .ok o) :
    ∃ (chosen : List Tiling.Candidate) (cost : Tiling.Cost) (table : ℕ × ℕ),
      o.best = .ofCandidates ⟨s.wx, s.wy⟩ chosen cost table ∧ o.best.validate = .ok () ∧
        ∀ c ∈ chosen,
          (c.rect.x < s.wx ∧ c.rect.y < s.wy) ∧ 0 < c.rect.width ∧ 0 < c.rect.height := by
  obtain ⟨problem, hmake, rfl, hvalidate⟩ := findTiling_eq_ok h
  obtain ⟨⟨config, hbest⟩, -⟩ := Tiling.Search.run_best (p := problem)
    (Q := fun t => ∃ config, t = problem.evaluate config) (fun config _ => ⟨config, rfl⟩)
    options.budget Tiling.Surroundings.clock options.strategy
  obtain ⟨hgrid, -⟩ := Tiling.Problem.make_eq_ok hmake
  rw [Tiling.Problem.evaluate, hgrid] at hbest
  refine ⟨_, _, _, hbest, hvalidate, fun c hc => ?_⟩
  obtain ⟨i, -, hi⟩ := List.mem_filterMap.mp hc
  obtain ⟨hshaped, hcorner, -⟩ :=
    Tiling.of_mem_enumerate (Tiling.Problem.mem_enumerate hmake hi)
  exact ⟨hcorner, hshaped.pos⟩

/-- The tiling that is found fills the grid of the product. -/
lemma fills_of_findTiling [Tiling.Surroundings] {options : MultiplierOptions} {o : Tiling.Outcome}
    (h : s.findTiling options = .ok o) : Tiling.Fills o.best.rects ⟨s.wx, s.wy⟩ := by
  obtain ⟨chosen, cost, table, hbest, hvalidate, hblocks⟩ := blocks_of_findTiling h
  rw [hbest] at hvalidate ⊢
  exact (Tiling.inWords_of_validate (fun c hc => (hblocks c hc).1) (fun c hc => (hblocks c hc).2)
    hvalidate).2

/-- The far corners of blocks in the grid of a product of words can be counted. -/
lemma placements_inWords {config : Tiling.Configuration} (hword : s.wx + s.wy ≤ wordBits)
    (h : Tiling.Fills config.rects ⟨s.wx, s.wy⟩) : ∀ p ∈ config.placements, p.rect.InWords := by
  have hgrid : (Tiling.Grid.mk s.wx s.wy).InWords := by
    rw [wordBits] at hword
    constructor <;> dsimp only <;> omega
  exact fun p hp => (h.within _ (List.mem_append_left _
    (List.mem_map_of_mem (Array.mem_toList_iff.mpr hp)))).inWords hgrid

/-- Rectangles that fill the grid make up the product. -/
lemma sum_products_of_fills {rects : List Tiling.Rect} (ho : s.Operands a b)
    (hs : s.signed = false) (h : Tiling.Fills rects ⟨s.wx, s.wy⟩) :
    ((rects.map fun r => r.product a b * 2 ^ (r.x + r.y)).sum : ℕ) = s.exact a b := by
  have hall : (Tiling.Grid.mk s.wx s.wy).whole.product a b * 2 ^ (0 + 0) = a * b := by
    rw [Tiling.Rect.product, Tiling.Grid.whole, chunk_zero, chunk_zero, Nat.mod_eq_of_lt ho.ltX,
      Nat.mod_eq_of_lt ho.ltY, pow_zero, Nat.mul_one]
  simp only [Tiling.Rect.product_eq]
  rw [h.sum_cells, ← Tiling.Rect.product_eq]
  refine (congrArg Nat.cast hall).trans ?_
  rw [exact, hs, Nat.cast_mul]
  rfl

/-- Cascades and tables that fill the grid add the product. -/
theorem addTiling_adds [Tiling.Surroundings] {options : MultiplierOptions} {report : TilingReport}
    (hsound : c.Sound) (ho : s.Operands a b) (hs : s.signed = false)
    (h : s.addTiling options c = .ok report c') :
    s.Adds c c' a b (s.exact a b) (s.grid.lowSum (s.cut c.heap)) := by
  obtain ⟨o, c₁, hbuild, hrest⟩ := bind_eq_ok.mp h
  obtain ⟨_, c₂, hcascades, hrest⟩ := bind_eq_ok.mp hrest
  obtain ⟨_, c₃, hregions, hpure⟩ := bind_eq_ok.mp hrest
  obtain ⟨-, rfl⟩ := pure_eq_ok.mp hpure
  obtain ⟨b₁, hexcept, -⟩ := Contributing.build_eq_ok.mp hbuild
  have hfills := fills_of_findTiling (ofExcept_eq_ok.mp hexcept).1
  have hwords := placements_inWords ho.word hfills
  have hperm := Tiling.cascades_perm o.best.placements (max options.maxChain 1)
  have hstart := Adds.build (s := s) (x := a) (y := b) hsound (Build.ofExcept_rising _) hbuild
  have hblocks := addCascades_adds hstart.sound ho (fun i hi => Tiling.cascade_stacked hwords hi)
    (fun r hr => hfills.within r (List.mem_append_left _ (hperm.mem_iff.mp hr))) hcascades
  have htables := addRegions_adds hblocks.sound ho hs
    (fun r hr => hfills.within r (List.mem_append_right _ hr)) hregions
  have hall := hstart.trans (hblocks.trans htables)
  rw [(hperm.map _).sum_eq, (hperm.map _).sum_eq, ← Nat.cast_add, ← List.sum_append,
    ← List.map_append, cut_of_sameShape hblocks.shape, ← List.sum_append, ← List.map_append,
    zero_add, Nat.zero_add] at hall
  convert hall using 1
  · exact (sum_products_of_fills ho hs hfills).symm
  · rw [cut_of_sameShape hstart.shape]
    exact (hfills.sum_cells _).symm

end Site

end Datapath
