/-
The elements of a tiled multiplier.

* `Site.addCascade_grows`: a cascade places its blocks and, between them, one
  adder fewer; `Site.addCascades_grows`: all cascades.
* `Site.addTables_grows`: a rectangle is made of as many tables as it takes to
  cover it; `Site.addRegions_grows`: all rectangles.
* `TilingReport.Counts`, `TilingReport.Tells`: what a report says about the
  elements and the tiling that was found. `Site.addTiling_grows`: a tiled product
  has these elements.
* `Tiling.priced_of_search`: what the tables and the cost of the best tiling of
  a search are.
* `Multiplier.parts_of_build`: a tiled multiplier has the elements that the
  search put a price on.
-/
import Datapath.Proofs.Construction.Census
import Datapath.Proofs.Multiplier.Faithful
import Datapath.Proofs.Product.Order
import Datapath.Proofs.Product.Tiled
import Datapath.Proofs.Tiling.Correct
import Datapath.Proofs.Tiling.Links

namespace Datapath

open Build

/-! ### Partial products -/

/-- The number of elements of each kind so far. -/
def Contribution.census (c : Contribution) : Part → ℕ := c.builder.census

open Contribution (census)

namespace Contributing

variable {α : Type} {d : Part → ℕ}

lemma build_grows {step : Build α} (h : Leads (Grows Builder.census d) step) :
    Leads (Grows census d) (build step) := by
  intro c a c' hstep
  obtain ⟨b, hb, rfl⟩ := build_eq_ok.mp hstep
  exact h hb

/-- An addition to the heap places no element. -/
lemma heap_quiet (step : Schedule → Heaping α) : Leads (Grows census 0) (heap step) := by
  intro c a c' hstep
  obtain ⟨h, -, rfl⟩ := heap_eq_ok.mp hstep
  exact refl_of (Grows census 0) c

/-- Neither does the record of a partial product. -/
lemma record_quiet (id : SignalId) (p : PartialProduct) : Leads (Grows census 0) (record id p) :=
  .modify fun c => refl_of (Grows census 0) c

end Contributing

namespace Site

open Contributing (build_grows heap_quiet record_quiet)

variable {s : Site} {label tag : String} {c c' : Contribution}

lemma addBit_quiet (b : BitRef) (weight : ℤ) : Leads (Grows census 0) (s.addBit b weight) :=
  Leads.get.bind fun _ => .ite (.pure _) (heap_quiet _)

lemma addBits_quiet (id : SignalId) (negative : ℕ → Bool) (weight : ℤ) (index count : ℕ) :
    Leads (Grows census 0) (s.addBits id negative weight index count) := by
  induction count generalizing weight index with
  | zero => exact .pure _
  | succ count ih => exact (addBit_quiet _ _).bind fun _ => ih _ _

lemma addOperand_quiet (id : SignalId) (weight : ℤ) (signed : Bool) :
    Leads (Grows census 0) (s.addOperand id weight signed) :=
  (build_grows (signal_quiet id)).bind fun _ => addBits_quiet _ _ _ _ _

lemma readOperands_quiet : Leads (Grows Builder.census 0) s.readOperands :=
  (moveTo_quiet _).bind fun _ => (read_quiet _).bind fun _ => (read_quiet _).bind fun _ => .pure _

/-! ### Cascades -/

/-- The product on some bits is one block. -/
lemma placeFields_grows (x y : OperandField) :
    Leads (Grows census (Pi.single .block 1)) (s.placeFields label x y) :=
  (build_grows <| readOperands_quiet.quietly fun _ => (declare_quiet _ _).quietly fun _ =>
    (declare_quiet _ _).quietly fun _ => placeBlock_grows _ _).settled fun _ =>
      (record_quiet _ _).bind fun _ => .pure _

/-- There is one block for each stage of a cascade. -/
lemma placeStages_grows {lowest k : ℕ} {ready ready' : Instant} {blocks : List Tiling.Placement}
    {stages : List Stage}
    (h : s.placeStages label lowest k ready blocks c = .ok (stages, ready') c') :
    Grows census (Pi.single .block blocks.length) c c' ∧ stages.length = blocks.length := by
  induction blocks generalizing k ready c stages with
  | nil =>
    obtain ⟨hstages, rfl⟩ := pure_eq_ok.mp h
    cases hstages
    rw [List.length_nil, Pi.single_zero]
    exact ⟨refl_of _ _, rfl⟩
  | cons p rest ih =>
    obtain ⟨product, c₁, hproduct, h⟩ := bind_eq_ok.mp h
    obtain ⟨point, c₂, hnow, h⟩ := bind_eq_ok.mp h
    obtain ⟨⟨others, ready''⟩, c₃, hothers, h⟩ := bind_eq_ok.mp h
    obtain ⟨hstages, rfl⟩ := pure_eq_ok.mp h
    cases hstages
    obtain ⟨hgrows, hlength⟩ := ih hothers
    have hall := ((placeFields_grows _ _ hproduct).trans (build_grows now_quiet hnow)).trans hgrows
    rw [add_zero, ← Pi.single_add, Nat.add_comm] at hall
    exact ⟨hall, congrArg Nat.succ hlength⟩

/-- There is one adder for each product that is added to a sum. -/
lemma addUp_grows (width k : ℕ) (terms : List CascadeTerm) (sum : SignalId)
    (stages : List Stage) :
    Leads (Grows census (Pi.single .postAdder stages.length))
      (s.addUp label width k terms sum stages) := by
  induction stages generalizing k terms sum with
  | nil =>
    rw [List.length_nil, Pi.single_zero]
    exact .pure _
  | cons stage rest ih =>
    rw [List.length_cons, Nat.add_comm, Pi.single_add]
    exact (build_grows (placePostAdder_grows _ _)).add fun _ => (record_quiet _ _).quietly fun _ =>
      ih _ _ _

/-- The elements of a cascade of `n` blocks. -/
def cascadeParts (n : ℕ) : Part → ℕ
  | .block => n
  | .postAdder => n - 1
  | .table => 0

lemma cascadeParts_succ (n : ℕ) :
    cascadeParts (n + 1) = Pi.single .block (n + 1) + Pi.single .postAdder n := by
  funext p
  cases p <;> simp [cascadeParts]

/-- A cascade places its blocks, and adders between them. -/
lemma addCascade_grows (n : ℕ) (blocks : List Tiling.Placement) :
    Leads (Grows census (cascadeParts blocks.length)) (s.addCascade n blocks) := by
  intro c _ c' h
  obtain ⟨⟨stages, ready⟩, c₁, hstages, h⟩ := bind_eq_ok.mp h
  obtain ⟨hgrows, hlength⟩ := placeStages_grows hstages
  rw [← hlength] at hgrows ⊢
  match stages with
  | [] =>
    obtain ⟨-, rfl⟩ := pure_eq_ok.mp h
    convert hgrows using 1
    funext p
    cases p <;> rfl
  | [only] =>
    rw [List.length_singleton, cascadeParts_succ, Pi.single_zero]
    exact hgrows.trans (addOperand_quiet _ _ _ h)
  | first :: second :: others =>
    rw [List.length_cons, cascadeParts_succ]
    refine hgrows.trans (Leads.quietly (build_grows ?_) (fun _ => ?_) h)
    · exact (addSubcomponent_quiet _).bind fun _ => moveTo_quiet _
    · exact (addUp_grows _ _ _ _ (second :: others)).settled fun _ => addOperand_quiet _ _ _

/-- All cascades, given by their lowest blocks. -/
lemma addCascades_grows (ps : Array Tiling.Placement) (n : ℕ) (heads : List ℕ) :
    Leads (Grows census
      (heads.map fun head => cascadeParts (Tiling.cascade ps head).length).sum)
        (s.addCascades ps n heads) := by
  induction heads generalizing n with
  | nil =>
    rw [List.map_nil, List.sum_nil]
    exact .pure _
  | cons head heads ih =>
    rw [List.map_cons, List.sum_cons]
    exact (addCascade_grows _ _).add fun _ => ih _

/-! ### Tables -/

lemma prepareCells_quiet (sx sy : Side) (pairs : List (ℕ × ℕ)) :
    Leads (Grows Builder.census 0) (prepareCells tag sx sy pairs) := by
  induction pairs with
  | nil => exact .pure _
  | cons pair rest ih =>
    exact Leads.bind ((ofExcept_quiet _).bind fun _ => (declare_quiet _ _).bind fun _ => .pure _)
      fun _ => ih.bind fun _ => .pure _

lemma defineTable_quiet (t : Target) (table : ProductTable) :
    Leads (Grows Builder.census 0) (defineTable t table) :=
  (ofExcept_quiet _).bind fun _ => addSubcomponent_quiet _

/-- The table for two pieces is one table. -/
lemma addCell_grows (corner : ℕ) (cell : TableCell) :
    Leads (Grows census (Pi.single .table 1)) (s.addCell tag corner cell) := by
  rw [← Part.tally_table cell.table]
  exact (build_grows <| (read_quiet _).quietly fun _ => (declare_quiet _ _).quietly fun _ =>
    (instantiate_grows _ _ _).settled fun _ => .pure _).settled fun _ =>
      (record_quiet _ _).bind fun _ => addBits_quiet _ _ _ _ _

lemma addCells_grows (corner : ℕ) (defined : List ProductTable) (cells : List TableCell) :
    Leads (Grows census (Pi.single .table cells.length)) (s.addCells tag corner defined cells) := by
  induction cells generalizing defined with
  | nil =>
    rw [List.length_nil, Pi.single_zero]
    exact .pure _
  | cons cell rest ih =>
    rw [List.length_cons, Nat.add_comm, Pi.single_add]
    refine .ite ((build_grows (defineTable_quiet _ _)).quietly fun _ => ?_) ?_
    all_goals exact (addCell_grows _ _).add fun _ => ih _

/-- There is one pair for each piece of one side and each piece of the other. -/
lemma length_pairs (m n : ℕ) :
    ((List.range n).flatMap fun j => (List.range m).map fun i => (i, j)).length = m * n := by
  simp [Nat.mul_comm]

/-- A rectangle is made of as many tables as it takes to cover it. -/
lemma addTables_grows (r : Tiling.Rect) :
    Leads (Grows census (Pi.single .table (Tiling.tableCount r (tableFields s.target))))
      (s.addTables r) := by
  intro c _ c' h
  obtain ⟨hdx, hdy⟩ := tableFields_pos s.target
  rw [Tiling.tableCount, Nat.max_eq_left hdx, Nat.max_eq_left hdy]
  rw [addTables] at h
  split_ifs at h with harea
  · -- there are no tables for a rectangle without cells
    obtain ⟨-, rfl⟩ := pure_eq_ok.mp h
    have hnone : ceilDiv r.width (tableFields s.target).1 *
        ceilDiv r.height (tableFields s.target).2 = 0 := by
      rcases Nat.mul_eq_zero.mp harea with hzero | hzero
      · rw [hzero, ceilDiv_zero hdx, Nat.zero_mul]
      · rw [hzero, ceilDiv_zero hdy, Nat.mul_zero]
    rw [hnone, Pi.single_zero]
    exact refl_of _ _
  · obtain ⟨n, c₁, hid, h⟩ := bind_eq_ok.mp h
    obtain ⟨cells, c₂, hprepare, hadd⟩ := bind_eq_ok.mp h
    have hquiet := (build_grows uniqueId_quiet hid).trans (build_grows
      (readOperands_quiet.bind fun _ => (prepareCells_quiet _ _ _).bind fun _ =>
        (advance_quiet _ _).bind fun _ => .pure _) hprepare)
    obtain ⟨b, hsteps, rfl⟩ := Contributing.build_eq_ok.mp hprepare
    obtain ⟨_, b₁, -, hsteps⟩ := bind_eq_ok.mp hsteps
    obtain ⟨cells', b₂, hcells, hsteps⟩ := bind_eq_ok.mp hsteps
    obtain ⟨_, b₃, -, hsteps⟩ := bind_eq_ok.mp hsteps
    obtain ⟨rfl, -⟩ := pure_eq_ok.mp hsteps
    have hlength := (prepareCells_ok hcells).2.length_eq
    have hall := hquiet.trans (addCells_grows _ _ _ hadd)
    rw [← hlength, length_pairs, add_zero, zero_add] at hall
    exact hall

/-- All rectangles. -/
lemma addRegions_grows (rects : List Tiling.Rect) :
    Leads (Grows census
      (Pi.single .table (rects.map fun r => Tiling.tableCount r (tableFields s.target)).sum))
        (s.addRegions rects) := by
  induction rects with
  | nil =>
    rw [List.map_nil, List.sum_nil, Pi.single_zero]
    exact .pure _
  | cons r rest ih =>
    rw [List.map_cons, List.sum_cons, Pi.single_add]
    exact (addTables_grows r).add fun _ => ih

/-! ### Tiled products -/

/-- Every block belongs to a cascade, and every block but the lowest of each has
an adder. -/
lemma sum_cascadeParts (lengths : List ℕ) (hpos : ∀ n ∈ lengths, 0 < n) :
    (lengths.map cascadeParts).sum .block = lengths.sum ∧
      (lengths.map cascadeParts).sum .postAdder + lengths.length = lengths.sum ∧
      (lengths.map cascadeParts).sum .table = 0 := by
  induction lengths with
  | nil => exact ⟨rfl, rfl, rfl⟩
  | cons n lengths ih =>
    obtain ⟨hn, hpos⟩ := List.forall_mem_cons.mp hpos
    obtain ⟨hblocks, hadders, htables⟩ := ih hpos
    simp only [List.map_cons, List.sum_cons, Pi.add_apply, cascadeParts, List.length_cons]
    omega

/-- No cascade is empty. -/
lemma length_cascade_pos {ps linked : Array Tiling.Placement} {maxLen head : ℕ} {heads : List ℕ}
    (hchained : Tiling.chainPlacements ps maxLen = (heads, linked)) (h : head ∈ heads) :
    0 < (Tiling.cascade linked head).length := by
  have hsize : head < linked.size := by
    have hlowest := @Tiling.mem_heads_iff ps head maxLen
    have hsame := Tiling.size_chainPlacements ps maxLen
    rw [hchained] at hlowest hsame
    rw [hsame]
    exact (hlowest.mp h).1
  have hblock := Array.getElem?_eq_getElem hsize
  exact List.length_pos_of_mem (List.mem_filterMap.mpr ⟨head, List.mem_cons_self, hblock⟩)

/-- The elements of the cascades that blocks are linked into. -/
lemma sum_chainPlacements {ps linked : Array Tiling.Placement} {maxLen : ℕ} {heads : List ℕ}
    (hchained : Tiling.chainPlacements ps maxLen = (heads, linked)) {d : Part → ℕ}
    (hd : d = (heads.map fun head => cascadeParts (Tiling.cascade linked head).length).sum) :
    d .block = ps.size ∧ d .postAdder + heads.length = ps.size ∧ d .table = 0 := by
  have hlength := (Tiling.cascades_perm ps maxLen).length_eq
  rw [hchained] at hlength
  have hsum : (heads.map fun head => (Tiling.cascade linked head).length).sum = ps.size := by
    simpa [List.length_flatMap] using hlength
  have hparts := sum_cascadeParts (heads.map fun head => (Tiling.cascade linked head).length)
    (by simpa using fun head hhead => length_cascade_pos hchained hhead)
  rw [List.map_map, List.length_map, hsum] at hparts
  rw [hd]
  exact hparts

end Site

/-- The elements `d` are those of a report on a tiling with tables of this
size. -/
structure TilingReport.Counts (r : TilingReport) (table : ℕ × ℕ) (d : Part → ℕ) : Prop where
  blocks : d .block = r.placements.size
  /-- Every block but the lowest of each cascade has an adder. -/
  postAdders : d .postAdder + r.chains = r.placements.size
  tables : d .table =
    (r.leftover.toList.map fun q => ceilDiv q.width table.1 * ceilDiv q.height table.2).sum

/-- A report is about the tiling that was found for a product, and `d` are the
elements of it. -/
structure TilingReport.Tells [Tiling.Surroundings] (r : TilingReport) (s : Site)
    (options : MultiplierOptions) (o : Tiling.Outcome) (d : Part → ℕ) : Prop where
  found : s.findTiling options = .ok o
  leftover : r.leftover = o.best.leftover
  /-- Its blocks are those of the tiling, but for their links. -/
  rects : r.placements.map (·.rect) = o.best.placements.map (·.rect)
  counts : r.Counts (tableFields s.target) d

namespace Site

open Contributing (build_grows)

variable {s : Site} {c c' : Contribution} {options : MultiplierOptions} {report : TilingReport}

/-- A tiled product has the elements that its report tells. -/
lemma addTiling_grows [Tiling.Surroundings] (h : s.addTiling options c = .ok report c') :
    ∃ o d, report.Tells s options o d ∧ Grows census d c c' := by
  obtain ⟨o, c₁, hfind, h⟩ := bind_eq_ok.mp h
  have hquiet := build_grows (ofExcept_quiet _) hfind
  obtain ⟨_, hexcept, -⟩ := Contributing.build_eq_ok.mp hfind
  cases hchained : Tiling.chainPlacements o.best.placements (max options.maxChain 1) with
  | mk heads linked =>
    rw [hchained] at h
    obtain ⟨_, c₂, hcascades, h⟩ := bind_eq_ok.mp h
    obtain ⟨_, c₃, hregions, h⟩ := bind_eq_ok.mp h
    obtain ⟨rfl, rfl⟩ := pure_eq_ok.mp h
    have hgrows := (hquiet.trans (addCascades_grows _ _ _ hcascades)).trans
      (addRegions_grows _ hregions)
    obtain ⟨hblocks, hadders, htables⟩ := sum_chainPlacements hchained rfl
    have hrects := Tiling.rect_chainPlacements o.best.placements (max options.maxChain 1)
    have hsize := Tiling.size_chainPlacements o.best.placements (max options.maxChain 1)
    rw [hchained] at hrects hsize
    obtain ⟨hdx, hdy⟩ := tableFields_pos s.target
    rw [zero_add] at hgrows
    refine ⟨o, _, ⟨(ofExcept_eq_ok.mp hexcept).1, rfl, ?_, ?_, ?_, ?_⟩, hgrows⟩
    · apply Array.ext_getElem?
      intro k
      rw [Array.getElem?_map, Array.getElem?_map]
      exact hrects k
    · simp [hblocks, hsize]
    · simp [hadders, hsize]
    · simp [htables, Tiling.tableCount, Nat.max_eq_left hdx, Nat.max_eq_left hdy]

end Site

namespace Tiling

/-- The tables of the best tiling of a search have the cells that it was costed
with, as far as these are counted, and its cost is that of its blocks and of these
cells. -/
lemma priced_of_search [Surroundings] (p : Problem) (b : Budget) (c : Clock)
    (strategy : Strategy) :
    ((Search.start p b c).run strategy).best.logicCells =
        wrap64 (((Search.start p b c).run strategy).best.leftover.toList.map
          fun r => tableCells r p.table).sum ∧
      ((Search.start p b c).run strategy).best.cost =
        p.cost.of ((Search.start p b c).run strategy).best.placements.size
          ((Search.start p b c).run strategy).best.logicCells := by
  refine (Search.run_best (p := p) (Q := fun c =>
    c.logicCells = wrap64 (c.leftover.toList.map fun r => tableCells r p.table).sum ∧
      c.cost = p.cost.of c.placements.size c.logicCells) (fun config _ => ?_) b c strategy).1
  simp [Problem.evaluate, Configuration.ofCandidates, List.sum_eq_foldr, List.foldr_map]

/-- The cells of the tables that cover some rectangles. -/
lemma sum_tableCells (rects : List Rect) {table : ℕ × ℕ} (hx : 0 < table.1) (hy : 0 < table.2) :
    (rects.map fun r => tableCells r table).sum = table.1 * table.2 *
      (rects.map fun r => ceilDiv r.width table.1 * ceilDiv r.height table.2).sum := by
  rw [← List.sum_map_mul_left]
  refine congrArg List.sum (List.map_congr_left fun r _ => ?_)
  rw [tableCells, tableCount, Nat.max_eq_left hx, Nat.max_eq_left hy]
  ring

end Tiling

/-! ### Multipliers -/

lemma Site.enter_quiet (t : Target) (m : ProductModel) (x y : SignalId) (base : ℤ) :
    Leads (Grows Builder.census 0) (enter t m x y base) :=
  (rewindTo_quiet _).bind fun _ => (syncTo_quiet _).bind fun _ => now_quiet.bind fun _ =>
    uniqueId_quiet.bind fun _ => .pure _

lemma reportAny_quiet (d : Option Diagnostic) : Leads (Grows Builder.census 0) (reportAny d) := by
  cases d with
  | none => exact .pure _
  | some d => exact diagnose_quiet d

lemma reportTiling_quiet (r : Option TilingReport) :
    Leads (Grows Builder.census 0) (reportTiling r) := by
  cases r with
  | none => exact .pure _
  | some r => exact .ite (diagnose_quiet _) (.pure _)

namespace MultiplierPlan

variable {p : MultiplierPlan} {t : Target} {options : MultiplierOptions} {b b' : Builder}

/-- The circuit of a tiled product has the elements of its report. -/
lemma Computes.grows [Tiling.Surroundings] {model : ProductModel} {x y : SignalId}
    {r : MultiplierCircuit} (htiling : p.architecture = .tiling)
    (h : p.Computes t options model x y b r b') :
    ∃ (s : Site) (o : Tiling.Outcome) (report : TilingReport) (d : Part → ℕ),
      s.target = t ∧ s.wx = model.wx ∧ s.wy = model.wy ∧ r.tiling = some report ∧
        report.Tells s options o d ∧ Grows Builder.census d b b' := by
  cases h with
  | table harchitecture _ _ => cases htiling.symm.trans harchitecture
  | block harchitecture _ => cases htiling.symm.trans harchitecture
  | heap _ _ hfill hcompress =>
    obtain ⟨heap, s, b₃, c₁, -, henter, hproduct, rfl, -⟩ := fillHeap_eq_ok hfill
    rw [htiling, Site.addProduct, map_eq_pure_bind] at hproduct
    obtain ⟨report, c₂, htiled, hproduct⟩ := bind_eq_ok.mp hproduct
    obtain ⟨rfl, rfl⟩ := pure_eq_ok.mp hproduct
    obtain ⟨o, d, htells, hgrows⟩ := Site.addTiling_grows htiled
    obtain ⟨-, -, -, hwx, hwy, -, -, rfl⟩ := Site.enter_ok henter
    have hall := ((Site.enter_quiet _ _ _ _ _ henter).trans hgrows).trans
      (BitHeap.compress_quiet _ hcompress)
    rw [zero_add, add_zero] at hall
    exact ⟨s, o, report, d, rfl, hwx, hwy, rfl, htells, hall⟩

/-- So does a tiled multiplier. -/
lemma steps_grows [Tiling.Surroundings] {m : Multiplier} (htiling : m.plan.architecture = .tiling)
    (h : p.steps t options b = .ok m b') :
    ∃ (s : Site) (o : Tiling.Outcome) (report : TilingReport) (d : Part → ℕ),
      s.target = t ∧ s.wx = max p.wx p.wy ∧ s.wy = min p.wx p.wy ∧ m.tiling = some report ∧
        report.Tells s options o d ∧ Grows Builder.census d b b' := by
  obtain ⟨circuit, _, _, _, _, _, _, _, _, _, hfallback, htruncation, hx, hy, hcircuit, hreport,
    hout, rfl⟩ := steps_eq_ok h
  obtain ⟨s, o, report, d, ht, hwx, hwy, hreported, htells, hgrows⟩ := hcircuit.grows htiling
  have hbefore := (((reportAny_quiet _ hfallback).trans (reportAny_quiet _ htruncation)).trans
    (addInput_quiet _ _ hx)).trans (addInput_quiet _ _ hy)
  have hafter := (reportTiling_quiet _ hreport).trans (addOutput_quiet _ _ _ hout)
  have hall := (hbefore.trans hgrows).trans hafter
  simp only [zero_add, add_zero] at hall
  exact ⟨s, o, report, d, ht, hwx, hwy, hreported, htells, hall⟩

end MultiplierPlan

/-- **What is built is what the search put a price on.** A tiled multiplier has
one block for each block of its report, an adder for each block but the lowest of
each cascade, and for each rectangle that is left to logic as many tables as it
takes to cover it. The report is about the best tiling of the search. The cells of
the tables are the cells of logic of this tiling, which are counted in 64 bits, and
its cost is that of the blocks and of these cells. -/
theorem Multiplier.parts_of_build [Tiling.Surroundings] {t : Target} {wx wy wOut : ℕ}
    {signed : Bool} {options : MultiplierOptions} {m : Multiplier} {built : BuiltOperator}
    (h : build t wx wy wOut signed options = .ok (m, built))
    (htiling : m.plan.architecture = .tiling) :
    ∃ (problem : Tiling.Problem) (best : Tiling.Configuration) (report : TilingReport),
      Tiling.Problem.make ⟨max wx wy, min wx wy⟩
          ⟨(t.blockWidths false).1, (t.blockWidths false).2⟩ options.blockRatio (tableFields t) =
        .ok problem ∧
      ((Tiling.Search.start problem options.budget Tiling.Surroundings.clock).run
        options.strategy).best = best ∧
      m.tiling = some report ∧ report.leftover = best.leftover ∧
      report.placements.map (·.rect) = best.placements.map (·.rect) ∧
      report.Counts (tableFields t) built.component.countPart ∧
      best.logicCells =
        wrap64 ((tableFields t).1 * (tableFields t).2 * built.component.countPart .table) ∧
      ((tableFields t).1 * (tableFields t).2 * built.component.countPart .table < 2 ^ 64 →
        (tableFields t).1 * (tableFields t).2 * built.component.countPart .table =
          best.logicCells) ∧
      best.cost = problem.cost.of (built.component.countPart .block) best.logicCells := by
  obtain ⟨p, hp, hconstruct⟩ := except_bind_eq_ok.mp h
  obtain ⟨b, hsteps, rfl⟩ := construct_eq_ok hconstruct
  obtain ⟨rfl, rfl, -, -⟩ := MultiplierPlan.widths_of_make hp
  obtain ⟨s, o, report, d, rfl, hsx, hsy, hreported, ⟨hfind, hleftover, hrects, hcounts⟩, hgrows⟩ :=
    MultiplierPlan.steps_grows htiling hsteps
  obtain ⟨problem, hmake, rfl, -⟩ := Site.findTiling_eq_ok hfind
  rw [hsx, hsy] at hmake
  have hcensus : b.finish.component.countPart = d := by
    have hstart : (Builder.forTarget p.name s.target).census = 0 := rfl
    rw [Grows, hstart, zero_add] at hgrows
    exact hgrows
  have htable : problem.table = tableFields s.target := (Tiling.Problem.make_eq_ok hmake).2.1
  obtain ⟨hcells, hcost⟩ :=
    Tiling.priced_of_search problem options.budget Tiling.Surroundings.clock options.strategy
  obtain ⟨hdx, hdy⟩ := Site.tableFields_pos s.target
  rw [htable, Tiling.sum_tableCells _ hdx hdy, ← hleftover, ← hcounts.tables] at hcells
  have hblocks := congrArg Array.size hrects
  rw [Array.size_map, Array.size_map, ← hcounts.blocks] at hblocks
  rw [hcensus]
  refine ⟨problem, _, report, hmake, rfl, hreported, hleftover, hrects, hcounts, hcells, ?_, ?_⟩
  · intro hlt
    rw [hcells, wrap64_of_lt hlt]
  · rw [hcost, hblocks]

/-! ### A small multiplier -/

namespace Tiling

/-- A small problem: every block takes one row, and a column is left free. -/
def oneRow : Problem where
  grid := ⟨5, 3⟩
  cost := .weights 1.0 4
  table := (2, 3)
  candidates := (Candidate.enumerate ⟨5, 3⟩ ⟨4, 1⟩).toArray

/-- A block in every row. -/
def allRows : Configuration := oneRow.evaluate [0, 1, 2]

lemma greedy_oneRow : oneRow.greedy = [0, 1, 2] := by decide +kernel

lemma placements_allRows : allRows.placements =
    #[⟨⟨0, 0, 4, 1⟩, false, none, none⟩, ⟨⟨0, 1, 4, 1⟩, false, none, none⟩,
      ⟨⟨0, 2, 4, 1⟩, false, none, none⟩] := by
  decide +kernel

lemma leftover_allRows : allRows.leftover = #[⟨4, 0, 1, 3⟩] := by decide +kernel

lemma validate_allRows : allRows.validate = .ok () := by
  rw [Configuration.validate, Configuration.rects, placements_allRows, leftover_allRows]
  rfl

/-- The blocks are one cascade. -/
lemma chainPlacements_allRows : chainPlacements allRows.placements 3 =
    ([0], #[⟨⟨0, 0, 4, 1⟩, false, none, some 1⟩, ⟨⟨0, 1, 4, 1⟩, false, some 0, some 2⟩,
      ⟨⟨0, 2, 4, 1⟩, false, some 1, none⟩]) := by
  have hscan : scanOrder allRows.placements = [0, 1, 2] := by
    rw [placements_allRows]
    cbv
  have hchains : chains allRows.placements 3 = [[0, 1, 2]] := by
    rw [chains, hscan, placements_allRows]
    decide +kernel
  rw [chainPlacements, hchains, placements_allRows]
  simp [link]

end Tiling

/-- A target without registers and without delays. -/
def shallow : Target :=
  { AffineDelays.standard with
    lutInputs := 5
    lut := 0.0
    wire := 0.0
    unsignedBlock := (4, 1)
    block := 0.0 : AffineDelays }.model ⟨Frequency.ofMHz 400.0, false, true⟩

/-- No time for a search, and long cascades. -/
def hasty : MultiplierOptions :=
  { MultiplierOptions.standard with budget := ⟨0, none⟩, maxChain := 3 }

/-- Without time the first arrangement is the best one, whatever the clock says. -/
lemma run_oneRow [Tiling.Surroundings] (c : Tiling.Clock) :
    (Tiling.Search.start Tiling.oneRow hasty.budget c).run hasty.strategy =
      ⟨Tiling.allRows, 1, true, false⟩ := by
  simp [Tiling.Search.run, Tiling.Search.start, Tiling.Search.exhaust, Tiling.Search.stepLimit,
    Tiling.Search.runSteps, Tiling.Search.step, Tiling.Search.outcome, Tiling.Search.offer,
    Tiling.Search.evaluate, Tiling.Search.startLevel, Tiling.Search.checkBudget,
    Tiling.Search.spent, Tiling.clockSpan, Tiling.greedy_oneRow, Tiling.allRows, hasty,
    MultiplierOptions.standard]

lemma findTiling_shallow [Tiling.Surroundings] {s : Site} (ht : s.target = shallow)
    (hx : s.wx = 5) (hy : s.wy = 3) :
    s.findTiling hasty = .ok ⟨Tiling.allRows, 1, true, false⟩ := by
  have hblock : shallow.blockWidths false = (4, 1) := rfl
  have hmake : Tiling.Problem.make ⟨5, 3⟩ ⟨4, 1⟩ hasty.blockRatio (tableFields shallow) =
      .ok Tiling.oneRow := rfl
  rw [Site.findTiling, ht, hx, hy, hblock]
  dsimp only
  rw [hmake]
  simp [run_oneRow, Tiling.validate_allRows, bind, Except.bind, pure, Except.pure]

open Runs MultiplierRuns in
/-- A product of three blocks, the adders between them and one table can be
built. -/
lemma Multiplier.build_shallow :
    ∃ m built, Multiplier.build shallow 5 3 0 false hasty = .ok (m, built) ∧
      m.plan.architecture = .tiling := by
  have hlut : ¬ 5 + 3 ≤ shallow.lutInputs + 2 := by decide
  have hratio : ¬ hasty.blockRatio ≤ 0.0 := by decide +kernel
  have hchain : hasty.maxChain = 3 := rfl
  have hblocks : shallow.hasHardMultipliers = true := rfl
  have hblock : shallow.blockWidths false = (4, 1) := rfl
  have hfields : tableFields shallow = (2, 3) := rfl
  have hpipelined : shallow.pipelined = false := rfl
  -- no delay is greater than zero
  have hdelay : shallow.blockDelay = 0.0 := rfl
  have hsum : (0.0 : Delay) + 0.0 = 0.0 := by decide +kernel
  have hmax : Delay.greater 0.0 0.0 = 0.0 := by decide +kernel
  have hlookup : ProductTable.delay ⟨2, 3, 5, false, false⟩ shallow 1 = 0.0 := by decide +kernel
  -- the elements that are used
  have htable : ProductTable.name ⟨2, 3, 5, false, false⟩ = "SmallMultTable_2_3_5_uu" := rfl
  have hfits : ¬ ProductTable.TooSlow ⟨2, 3, 5, false, false⟩ shallow := fun hslow =>
    Bool.false_ne_true hslow.1
  obtain ⟨table, hcomponent⟩ := ProductTable.exists_component hfits
  have hname := (ProductTable.isElement_of_component hcomponent).2.trans htable
  have hripple : rippleName 8 = "IntAdder_8" := rfl
  have hadder : (rippleComponent 8).name = "IntAdder_8" := rfl
  have hplan : ChunkPlan.make shallow 8 shallow.period =
      .ok ⟨8, layChunks 0 [8], .single, 0, 0⟩ := rfl
  have hdigits : Nat.repr 0 = "0" ∧ Nat.repr 1 = "1" ∧ Nat.repr 2 = "2" ∧ Nat.repr 3 = "3" ∧
      Nat.repr 4 = "4" ∧ Nat.repr 8 = "8" := ⟨rfl, rfl, rfl, rfl, rfl, rfl⟩
  simp [Functor.map, EStateM.map, Site.addTiling, Site.addCascades, Site.addCascade,
    Site.placeStages, Site.placeFields, Site.addUp, Site.addRegions, Site.addTables,
    Site.prepareCells, Site.prepareCell, Site.addCells, Site.addCell, Site.defineTable,
    Site.addOperand, Tiling.members, Tiling.follow, Tiling.Placement.weight, Tiling.Rect.area,
    OperandField.plain, Side.count, Side.padding, Side.isLast, Side.field, ceilDiv, placeBlock,
    blockName, blockComponent, placePostAdder, postAdderComponent, postAdderName,
    Component.primitive, Instant.later, findTiling_shallow, Tiling.chainPlacements_allRows,
    Tiling.leftover_allRows, hlut, hratio, hchain, hblocks, hblock, hfields, hpipelined, hdelay,
    hsum, hmax, hlookup, htable, hcomponent, hname, hripple, hadder, hplan, hdigits,
    -Array.any_eq_true, -Array.any_eq_false]

theorem Multiplier.parts_of_build_shallow :
    ∃ m built report, Multiplier.build shallow 5 3 0 false hasty = .ok (m, built) ∧
      m.plan.architecture = .tiling ∧ m.tiling = some report ∧
      report.Counts (tableFields shallow) built.component.countPart := by
  obtain ⟨m, built, hbuild, htiling⟩ := Multiplier.build_shallow
  obtain ⟨_, _, report, -, -, hreport, -, -, hcounts, -⟩ := parts_of_build hbuild htiling
  exact ⟨m, built, report, hbuild, htiling, hreport, hcounts⟩

end Datapath
