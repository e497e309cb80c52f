/-
Partial products at the widths of their signals.

* `PartialProduct.Within`: a partial product fits in some width, whatever the
  operands. For the sum of a cascade this is the width of the product above the
  lowest block, and the exact sum fits, not only what a word holds of it.
* `Site.cascade_within`: blocks on top of each other make up a rectangle in the
  grid, so the sum of their products is the product on it.
* `Builder.RoomFor`: every partial product is a signal with room for it.
* `Site.Sizes`: steps that keep it so. `Sizes.emit` is the step that records a
  partial product; every other step leaves the partial products alone.
* `addRows_sizes`, `addTable_sizes`, `addBlock_sizes`, `addTables_sizes`,
  `addTiling_sizes`: the ways to add a product are such steps.
-/
import Datapath.Proofs.Construction.Run
import Datapath.Proofs.Product.Tiled

namespace Datapath

/-! ### Values -/

/-- The weight of the lowest bit of a block in the whole product. -/
def CascadeTerm.weight (t : CascadeTerm) : ℕ := t.x.lo + t.y.lo

namespace PartialProduct

/-- A partial product of operands of these widths fits in `width` bits. The sum
of a cascade has the width of the product above its lowest block. -/
structure Within (p : PartialProduct) (wx wy width : ℕ) : Prop where
  lt : ∀ a b, a < 2 ^ wx → b < 2 ^ wy → p.value a b < 2 ^ width
  sum : ∀ terms, p = cascade terms → ∃ first ∈ terms.head?, width + first.weight = wx + wy ∧
    ∀ a b, a < 2 ^ wx → b < 2 ^ wy → cascadeSum a b terms < 2 ^ width

variable {wx wy : ℕ}

/-- A row is the first operand or zero. -/
lemma row_within (j wx wy : ℕ) : (row j).Within wx wy wx where
  lt a b ha _ := by
    rw [value]
    split_ifs
    · exact ha
    · positivity
  sum _ h := nomatch h

lemma table_within (t : ProductTable) (x y : OperandField) (wx wy : ℕ) :
    (table t x y).Within wx wy t.wOut where
  lt _ _ _ _ := t.entry_lt _
  sum _ h := nomatch h

/-- A block is as wide as both its fields together. -/
lemma block_within (hword : wx + wy ≤ wordBits) (lx ly : ℕ) {w h : ℕ} (hw : w ≤ wx) (hh : h ≤ wy)
    (signed : Bool) : (block (.plain lx w) (.plain ly h) signed).Within wx wy (w + h) where
  lt a b ha hb := by
    cases signed with
    | true =>
      rw [value, if_pos rfl]
      exact truncateInt_lt _ _
    | false =>
      rw [block_value (lt_word (by omega) ha) (lt_word (by omega) hb) (by omega)]
      exact Tiling.Rect.product_lt ⟨lx, ly, w, h⟩ a b
  sum _ h := nomatch h

end PartialProduct

/-- Both operands of a product have bits, and together they fit in a word. -/
structure Site.Narrow (s : Site) : Prop where
  posX : 0 < s.wx
  posY : 0 < s.wy
  word : s.wx + s.wy ≤ wordBits

lemma Site.Narrow.operands {s : Site} {a b : ℕ} (hs : s.Narrow) (ha : a < 2 ^ s.wx)
    (hb : b < 2 ^ s.wy) : s.Operands a b :=
  ⟨hs.posX, hs.posY, hs.word, ha, hb⟩

namespace Site

variable {s : Site}

/-- The sum of a cascade is the product on a rectangle in the grid, which starts
at the lowest block. -/
lemma cascade_within {p : Tiling.Placement} {ps : List Tiling.Placement} (hs : s.Narrow)
    (hstack : ((p :: ps).map (·.rect)).IsChain Tiling.Rect.Above)
    (hholds : ∀ r ∈ (p :: ps).map (·.rect), s.Holds r) :
    (PartialProduct.cascade ((p :: ps).map (blockTerm p.weight))).Within s.wx s.wy
      (s.wx + s.wy - p.weight) := by
  obtain ⟨hx, hy⟩ := stack_le hstack hholds
  have hproduct : ∀ a b, (Tiling.stack p.rect (ps.map (·.rect))).product a b <
      2 ^ (s.wx + s.wy - p.weight) := by
    intro a b
    refine (Tiling.Rect.product_lt _ a b).trans_le (Nat.pow_le_pow_right (by norm_num) ?_)
    change p.rect.width + _ ≤ _ - (p.rect.x + p.rect.y)
    omega
  refine ⟨fun a b ha hb => ?_, ?_⟩
  · exact (cascade_value (hs.operands ha hb) hstack hholds).trans_lt (hproduct a b)
  · rintro _ ⟨⟩
    refine ⟨_, rfl, ?_, fun a b ha hb => ?_⟩
    · change s.wx + s.wy - (p.rect.x + p.rect.y) + (p.rect.x + p.rect.y) = _
      omega
    · obtain ⟨ha', hb'⟩ := (hs.operands ha hb).ltWord
      exact (cascadeSum_eq ha' hb' hstack).trans_lt (hproduct a b)

/-- The lowest blocks of a cascade are a cascade, too. -/
lemma prefix_within {p : Tiling.Placement} {ps : List Tiling.Placement} {ts : List CascadeTerm}
    (hs : s.Narrow) (hstack : ((p :: ps).map (·.rect)).IsChain Tiling.Rect.Above)
    (hholds : ∀ r ∈ (p :: ps).map (·.rect), s.Holds r)
    (hts : ts <+: ps.map (blockTerm p.weight)) :
    (PartialProduct.cascade (blockTerm p.weight p :: ts)).Within s.wx s.wy
      (s.wx + s.wy - p.weight) := by
  obtain ⟨n, rfl⟩ : ∃ n, ts = (ps.take n).map (blockTerm p.weight) :=
    ⟨ts.length, by rw [List.map_take]; exact List.prefix_iff_eq_take.mp hts⟩
  have hlowest : (p :: ps.take n).map (·.rect) <+: (p :: ps).map (·.rect) :=
    (List.cons_prefix_cons.mpr ⟨rfl, List.take_prefix n ps⟩).map _
  have hchain := List.IsChain.prefix hstack hlowest
  exact cascade_within hs hchain fun r hr => hholds r (hlowest.subset hr)

end Site

/-! ### Signals of partial products -/

namespace Builder

variable {b b' : Builder} {parts : Std.HashMap SignalId PartialProduct} {wx wy : ℕ}

/-- Every partial product of operands of these widths is a signal with room for
it. -/
def RoomFor (b : Builder) (parts : Std.HashMap SignalId PartialProduct) (wx wy : ℕ) : Prop :=
  ∀ id p, parts[id]? = some p → ∃ width, b.HasWidth id width ∧ p.Within wx wy width

namespace RoomFor

lemma empty (b : Builder) (wx wy : ℕ) : b.RoomFor ∅ wx wy := by
  intro id p hp
  rw [Std.HashMap.getElem?_empty] at hp
  cases hp

lemma mono (h : b.RoomFor parts wx wy) (hle : b ≤ b') : b'.RoomFor parts wx wy := by
  intro id p hp
  obtain ⟨width, hid, hwithin⟩ := h id p hp
  exact ⟨width, hid.mono hle, hwithin⟩

/-- A new signal becomes a partial product. -/
lemma insert {id : SignalId} {p : PartialProduct} {width : ℕ} (h : b.RoomFor parts wx wy)
    (hid : b.Emits b' id width) (hp : p.Within wx wy width) :
    b'.RoomFor (parts.insert id p) wx wy := by
  intro id' p' hp'
  rw [Std.HashMap.getElem?_insert] at hp'
  split_ifs at hp' with heq
  · cases hp'
    exact ⟨width, eq_of_beq heq ▸ hid.hasWidth, hp⟩
  · exact h.mono hid.later id' p' hp'

end RoomFor

end Builder

/-- Steps of a product that only add signals, and that leave room for all
partial products. -/
structure Site.Sizes (s : Site) (c c' : Contribution) : Prop where
  builder : c.builder ≤ c'.builder
  room : c.builder.RoomFor c.parts s.wx s.wy → c'.builder.RoomFor c'.parts s.wx s.wy

namespace Site

variable {s : Site} {c c' c₁ c₂ : Contribution} {id : SignalId} {label tag : String} {α : Type}

instance : IsPreorder Contribution s.Sizes where
  refl _ := ⟨le_refl _, fun h => h⟩
  trans _ _ _ h h' := ⟨h.builder.trans h'.builder, fun hroom => h'.room (h.room hroom)⟩

namespace Sizes

lemma trans (h : s.Sizes c c₁) (h' : s.Sizes c₁ c₂) : s.Sizes c c₂ := trans_of s.Sizes h h'

/-- Partial products stay as they are, and signals keep their widths. -/
lemma of_parts (hle : c.builder ≤ c'.builder) (hparts : c'.parts = c.parts) : s.Sizes c c' :=
  ⟨hle, fun hroom => hparts ▸ hroom.mono hle⟩

/-- A new signal becomes a partial product. -/
lemma emit {step : Build SignalId} {p : PartialProduct} {width : ℕ} {r : Unit}
    (hbuild : Contributing.build step c = .ok id c₁)
    (hrecord : Contributing.record id p c₁ = .ok r c₂) (hp : p.Within s.wx s.wy width)
    (hemits : ∀ b, step c.builder = .ok id b → c.builder.Emits b id width) : s.Sizes c c₂ := by
  obtain ⟨b, hstep, rfl⟩ := Contributing.build_eq_ok.mp hbuild
  obtain rfl := Contributing.record_eq_ok.mp hrecord
  have hid := hemits b hstep
  exact ⟨hid.later, fun hroom => hroom.insert hid hp⟩

end Sizes

lemma build_sizes {step : Build α} (h : Rising step) :
    Leads s.Sizes (Contributing.build step) := by
  intro c _ c' hstep
  obtain ⟨b, hb, rfl⟩ := Contributing.build_eq_ok.mp hstep
  exact .of_parts (h hb) rfl

/-- A new signal becomes a partial product, and what follows uses it. -/
lemma emit_sizes {step : Build SignalId} {p : PartialProduct} {width : ℕ}
    {f : SignalId → Contributing α} (hp : p.Within s.wx s.wy width)
    (hemits : ∀ ⦃b id b'⦄, step b = .ok id b' → b.Emits b' id width)
    (hrest : ∀ id, Leads s.Sizes (f id)) :
    Leads s.Sizes (do
      let id ← Contributing.build step
      Contributing.record id p
      f id) := by
  intro c _ c' h
  obtain ⟨id, c₁, hbuild, h⟩ := bind_eq_ok.mp h
  obtain ⟨_, c₂, hrecord, h⟩ := bind_eq_ok.mp h
  exact (Sizes.emit hbuild hrecord hp fun _ hstep => hemits hstep).trans (hrest id h)

/-- Bits in the heap are no signals. -/
lemma heap_sizes (step : Schedule → Heaping α) : Leads s.Sizes (Contributing.heap step) := by
  intro c _ c' hstep
  obtain ⟨h, -, rfl⟩ := Contributing.heap_eq_ok.mp hstep
  exact .of_parts le_rfl rfl

lemma addBits_sizes (id : SignalId) (negative : ℕ → Bool) (weight : ℤ) (index count : ℕ) :
    Leads s.Sizes (s.addBits id negative weight index count) := by
  induction count generalizing weight index with
  | zero => exact .pure _
  | succ count ih =>
    exact (Leads.get.bind fun _ => .ite (.pure _) (heap_sizes _)).bind fun _ => ih _ _

lemma addOperand_sizes (id : SignalId) (weight : ℤ) (signed : Bool) :
    Leads s.Sizes (s.addOperand id weight signed) :=
  (build_sizes (Build.schedule_rising (Schedule.signal_rising id))).bind fun _ =>
    addBits_sizes _ _ _ _ _

/-! ### Rows and products in one piece -/

lemma addRowsFrom_sizes (j count : ℕ) : Leads s.Sizes (s.addRowsFrom j count) := by
  induction count generalizing j with
  | zero => exact .pure _
  | succ count ih =>
    refine Leads.bind ?_ fun _ => ih _
    exact emit_sizes (PartialProduct.row_within _ _ _) (fun _ _ _ h => .of_declare h) fun _ =>
      addBits_sizes _ _ _ _ _

/-- Rows of bits are as wide as the first operand. -/
lemma addRows_sizes : Leads s.Sizes s.addRows :=
  (build_sizes (s.readOperands_rising.bind fun _ =>
    (Build.advance_rising _ _).bind fun _ => .pure _)).bind fun _ => addRowsFrom_sizes _ _

/-- The entry of a table is as wide as its output. -/
lemma addTable_sizes : Leads s.Sizes s.addTable :=
  (build_sizes (Build.ofExcept_rising _)).bind fun table =>
    emit_sizes (PartialProduct.table_within table _ _ _ _)
      (fun b id b' h => by
        obtain ⟨_, b₁, hmove, h⟩ := bind_eq_ok.mp h
        exact (placeTable_emits h).after (Build.moveTo_rising _ hmove))
      fun _ => addOperand_sizes _ _ _

/-- One block of the whole product is as wide as both operands together. -/
lemma addBlock_sizes (hs : s.Narrow) (hr : s.Reads c.builder) (h : s.addBlock c = .ok () c') :
    s.Sizes c c' := by
  obtain ⟨out, c₁, hplace, h⟩ := bind_eq_ok.mp h
  obtain ⟨_, c₂, hrecord, hadd⟩ := bind_eq_ok.mp h
  refine Sizes.trans (.emit hplace hrecord (PartialProduct.block_within hs.word 0 0 le_rfl le_rfl
    s.signed) fun b hout => ?_) (addOperand_sizes _ _ _ hadd)
  obtain ⟨_, b₁, hmove, hout⟩ := bind_eq_ok.mp hout
  have hmoved := Build.moveTo_rising _ hmove
  exact (placeBlock_emits (hr.x.mono hmoved) (hr.y.mono hmoved) hout).after hmoved

/-! ### Tables -/

lemma prepareCells_rising (sx sy : Side) (pairs : List (ℕ × ℕ)) :
    Rising (prepareCells tag sx sy pairs) := fun _ _ _ h => (prepareCells_ok h).1

lemma addCells_sizes (corner : ℕ) (defined : List ProductTable) (cells : List TableCell) :
    Leads s.Sizes (s.addCells tag corner defined cells) := by
  induction cells generalizing defined with
  | nil => exact .pure _
  | cons cell rest ih =>
    have hcell : Leads s.Sizes (s.addCell tag corner cell) :=
      emit_sizes (PartialProduct.table_within _ _ _ _ _) (fun _ _ _ => cell_emits) fun _ =>
        addBits_sizes _ _ _ _ _
    refine .ite ((build_sizes (defineTable_rising _ _)).bind fun _ => ?_) ?_
    all_goals exact hcell.bind fun _ => ih _

/-- The tables of a rectangle are as wide as their outputs. -/
lemma addTables_sizes (r : Tiling.Rect) : Leads s.Sizes (s.addTables r) :=
  .ite (.pure _) <| (build_sizes Build.uniqueId_rising).bind fun _ =>
    (build_sizes (s.readOperands_rising.bind fun _ => (prepareCells_rising _ _ _).bind fun _ =>
      (Build.advance_rising _ _).bind fun _ => .pure _)).bind fun _ => addCells_sizes _ _ _

lemma addRegions_sizes (rects : List Tiling.Rect) : Leads s.Sizes (s.addRegions rects) := by
  induction rects with
  | nil => exact .pure _
  | cons r rest ih => exact (addTables_sizes r).bind fun _ => ih

/-! ### Cascades -/

/-- A block on some bits of the operands is as wide as both together. -/
lemma placeFields_sizes {r : Tiling.Rect} (hs : s.Narrow) (hr : s.Holds r) :
    Leads s.Sizes (s.placeFields label (.plain r.x r.width) (.plain r.y r.height)) := by
  obtain ⟨hw, hh⟩ := hr.le
  exact emit_sizes (PartialProduct.block_within hs.word _ _ (by omega) (by omega) false)
    (fun _ _ _ => fields_emits) fun _ => .pure _

/-- The blocks of a cascade have room for their products, and their terms are
those of the blocks. -/
lemma placeStages_sizes {lowest k : ℕ} {ready ready' : Instant} {ps : List Tiling.Placement}
    {stages : List Stage} (hs : s.Narrow) (hholds : ∀ r ∈ ps.map (·.rect), s.Holds r)
    (h : s.placeStages label lowest k ready ps c = .ok (stages, ready') c') :
    s.Sizes c c' ∧ stages.map (·.term) = ps.map (blockTerm lowest) := by
  induction ps generalizing c k ready stages with
  | nil =>
    obtain ⟨hstages, rfl⟩ := pure_eq_ok.mp h
    cases hstages
    exact ⟨refl_of _ _, rfl⟩
  | cons p ps ih =>
    obtain ⟨product, c₁, hplace, h⟩ := bind_eq_ok.mp h
    obtain ⟨now, c₂, hnow, h⟩ := bind_eq_ok.mp h
    obtain ⟨⟨others, ready₁⟩, c₃, hothers, h⟩ := bind_eq_ok.mp h
    obtain ⟨hstages, rfl⟩ := pure_eq_ok.mp h
    cases hstages
    obtain ⟨hp, hps⟩ := List.forall_mem_cons.mp hholds
    obtain ⟨hsizes, hterms⟩ := ih hps hothers
    have hfirst := (placeFields_sizes hs hp hplace).trans (build_sizes Build.now_rising hnow)
    exact ⟨hfirst.trans hsizes, congrArg (_ :: ·) hterms⟩

/-- Every sum of a cascade has room, if all sums of its lowest blocks have. -/
lemma addUp_sizes {width k : ℕ} {terms : List CascadeTerm} {sum : SignalId} {stages : List Stage}
    (hterms : ∀ ts, ts <+: stages.map (·.term) →
      (PartialProduct.cascade (terms ++ ts)).Within s.wx s.wy width) :
    Leads s.Sizes (s.addUp label width k terms sum stages) := by
  induction stages generalizing k terms sum with
  | nil => exact .pure _
  | cons stage stages ih =>
    have hfirst := hterms [stage.term] (List.cons_prefix_cons.mpr ⟨rfl, List.nil_prefix⟩)
    refine emit_sizes hfirst (fun _ _ _ => placePostAdder_emits) fun next => ih fun ts hts => ?_
    rw [← List.append_cons]
    exact hterms _ (List.cons_prefix_cons.mpr ⟨rfl, hts⟩)

/-- The blocks and the sums of a cascade have room. -/
lemma addCascade_sizes {n : ℕ} {blocks : List Tiling.Placement} (hs : s.Narrow)
    (hstack : (blocks.map (·.rect)).IsChain Tiling.Rect.Above)
    (hholds : ∀ r ∈ blocks.map (·.rect), s.Holds r) : Leads s.Sizes (s.addCascade n blocks) := by
  intro c _ c' h
  obtain ⟨⟨stages, ready⟩, c₁, hplace, h⟩ := bind_eq_ok.mp h
  obtain ⟨hplaced, hterms⟩ := placeStages_sizes hs hholds hplace
  refine hplaced.trans ?_
  match stages, blocks, hterms with
  | [], _, _ =>
    obtain ⟨-, rfl⟩ := pure_eq_ok.mp h
    exact refl_of _ _
  | [only], _, _ => exact addOperand_sizes _ _ _ h
  | first :: second :: others, p :: ps, hterms =>
    obtain ⟨(hfirst : first.term = blockTerm p.weight p), hothers⟩ := List.cons_eq_cons.mp hterms
    obtain ⟨_, c₂, hadder, h⟩ := bind_eq_ok.mp h
    obtain ⟨sum, c₃, hsum, hadd⟩ := bind_eq_ok.mp h
    have hready : s.Sizes c₁ c₂ := build_sizes ((Build.addSubcomponent_rising _).bind fun _ =>
      Build.moveTo_rising _) hadder
    have hsums : s.Sizes c₂ c₃ := addUp_sizes (fun ts hts => by
      rw [hfirst]
      exact prefix_within hs hstack hholds (hothers ▸ hts)) hsum
    exact hready.trans (hsums.trans (addOperand_sizes _ _ _ hadd))

lemma addCascades_sizes {ps : Array Tiling.Placement} {n : ℕ} {heads : List ℕ} (hs : s.Narrow)
    (hstack : ∀ i ∈ heads, ((Tiling.cascade ps i).map (·.rect)).IsChain Tiling.Rect.Above)
    (hholds : ∀ r ∈ heads.flatMap fun i => (Tiling.cascade ps i).map (·.rect), s.Holds r) :
    Leads s.Sizes (s.addCascades ps n heads) := by
  induction heads generalizing n with
  | nil => exact .pure _
  | cons i heads ih =>
    obtain ⟨hi, hheads⟩ := List.forall_mem_cons.mp hstack
    rw [List.flatMap_cons] at hholds
    obtain ⟨hfirst, hothers⟩ := List.forall_mem_append.mp hholds
    exact (addCascade_sizes hs hi hfirst).bind fun _ => ih hheads hothers

/-- The blocks, sums and tables of a tiling have room. -/
theorem addTiling_sizes [Tiling.Surroundings] {options : MultiplierOptions} (hs : s.Narrow) :
    Leads s.Sizes (s.addTiling options) := by
  intro c report c' h
  obtain ⟨o, c₁, hbuild, h⟩ := bind_eq_ok.mp h
  obtain ⟨_, c₂, hcascades, h⟩ := bind_eq_ok.mp h
  obtain ⟨_, c₃, hregions, h⟩ := bind_eq_ok.mp h
  obtain ⟨-, rfl⟩ := pure_eq_ok.mp h
  obtain ⟨b₁, hexcept, -⟩ := Contributing.build_eq_ok.mp hbuild
  have hfills := fills_of_findTiling (ofExcept_eq_ok.mp hexcept).1
  have hperm := Tiling.cascades_perm o.best.placements (max options.maxChain 1)
  have hblocks : s.Sizes c₁ c₂ := addCascades_sizes hs
    (fun i hi => Tiling.cascade_stacked (placements_inWords hs.word hfills) hi)
    (fun r hr => hfills.within r (List.mem_append_left _ (hperm.mem_iff.mp hr))) hcascades
  exact (build_sizes (Build.ofExcept_rising _) hbuild).trans
    (hblocks.trans (addRegions_sizes _ hregions))

end Site

end Datapath
