/-
The operators as runs of steps.

* `Contribution.Run`: steps that add partial products are a run of the operator
  that they are added in.
* `Site.addProduct_run`: every way to compute a product.
* `ChunkPlan.Late`, `Architecture.Late`: the elements that may start late in a
  wide adder and in a multiplier.
* `LongAdder.steps_run`, `MultiplierPlan.steps_run`, `Shifter.steps_run`: the
  operators.
-/
import Datapath.Adder.Long
import Datapath.Proofs.Construction.Additions
import Datapath.Proofs.Multiplier.Faithful
import Datapath.Shifter

namespace Datapath

open Build
open Builder (Run)

variable {late : String → Prop} {t : Target} {tag : String} {width : ℕ}

/-! ### Partial products -/

/-- Steps that add partial products are a run of the operator that they are
added in. -/
abbrev Contribution.Run (late : String → Prop) : Contribution → Contribution → Prop :=
  Order.Preimage Contribution.builder (Builder.Run late)

namespace Contributing

variable {α : Type}

lemma build_run {step : Build α} (h : Leads (Builder.Run late) step) :
    Leads (Contribution.Run late) (build step) := by
  intro c a c' hstep
  obtain ⟨b, hb, rfl⟩ := build_eq_ok.mp hstep
  exact h hb

/-- An addition to the heap is no step of the construction. -/
lemma heap_run {step : Schedule → Heaping α} : Leads (Contribution.Run late) (heap step) := by
  intro c a c' hstep
  obtain ⟨h, -, rfl⟩ := heap_eq_ok.mp hstep
  exact .refl

/-- Neither is the record of a partial product. -/
lemma record_run {id : SignalId} {p : PartialProduct} :
    Leads (Contribution.Run late) (record id p) :=
  .modify fun _ => .refl

end Contributing

namespace Site

open Contributing (build_run heap_run record_run)

variable {s : Site} {label : String}

/-- A multiplication of signals that are there at the start of a cycle starts
where nothing is spent of it. -/
lemma enter_unspent {m : ProductModel} {x y : SignalId} {base : ℤ} {b b' : Builder}
    (hx : b.Prompt x) (hy : b.Prompt y) (h : enter t m x y base b = .ok s b') :
    s.start.Unspent := by
  obtain ⟨_, b₁, hrewind, h⟩ := bind_eq_ok.mp h
  obtain ⟨_, b₂, hsync, h⟩ := bind_eq_ok.mp h
  obtain ⟨start, b₃, hnow, h⟩ := bind_eq_ok.mp h
  obtain ⟨n, b₄, hid, h⟩ := bind_eq_ok.mp h
  obtain ⟨rfl, -⟩ := pure_eq_ok.mp h
  cases hnow
  have hle : b ≤ b₁ := schedule_rising (Schedule.rewindTo_rising _) hrewind
  exact syncTo_unspent (hy.mono hle) (rewindTo_unspent hx hrewind) hsync

lemma enter_run {m : ProductModel} {x y : SignalId} {base : ℤ} :
    Leads (Run late) (enter t m x y base) :=
  (rewindTo_run _).bind fun _ => (syncTo_run _).bind fun _ => now_run.bind fun _ =>
    uniqueId_run.bind fun _ => .pure _

lemma readOperands_run : Leads (Run late) s.readOperands :=
  (moveTo_run _).bind fun _ => (read_run _).bind fun _ => (read_run _).bind fun _ => .pure _

lemma addBit_run {b : BitRef} {weight : ℤ} : Leads (Contribution.Run late) (s.addBit b weight) :=
  Leads.get.bind fun _ => .ite (.pure _) heap_run

lemma addBits_run {id : SignalId} {negative : ℕ → Bool} {weight : ℤ} {index count : ℕ} :
    Leads (Contribution.Run late) (s.addBits id negative weight index count) := by
  induction count generalizing weight index with
  | zero => exact .pure _
  | succ count ih => exact addBit_run.bind fun _ => ih

lemma addOperand_run {id : SignalId} {weight : ℤ} {signed : Bool} :
    Leads (Contribution.Run late) (s.addOperand id weight signed) :=
  (build_run (signal_run _)).bind fun _ => addBits_run

lemma addRow_run {j : ℕ} : Leads (Contribution.Run late) (s.addRow j) :=
  (build_run (declare_run _ _)).bind fun _ => record_run.bind fun _ => addBits_run

lemma addRowsFrom_run {j count : ℕ} : Leads (Contribution.Run late) (s.addRowsFrom j count) := by
  induction count generalizing j with
  | zero => exact .pure _
  | succ count ih => exact addRow_run.bind fun _ => ih

lemma addRows_run : Leads (Contribution.Run late) s.addRows :=
  (build_run (readOperands_run.bind fun _ => (advance_run _ _).bind fun _ => .pure _)).bind
    fun _ => addRowsFrom_run

lemma addTable_run (hstart : s.start.Unspent) : Leads (Contribution.Run late) s.addTable :=
  (build_run (ofExcept_run _)).bind fun _ =>
    (build_run (RunFrom.moveTo hstart placeTable_run)).bind fun _ =>
      record_run.bind fun _ => addOperand_run

lemma addBlock_run (hstart : s.start.Unspent) : Leads (Contribution.Run late) s.addBlock :=
  (build_run (RunFrom.moveTo hstart placeBlock_run)).bind fun _ =>
    record_run.bind fun _ => addOperand_run

lemma prepareCells_run {sx sy : Side} {pairs : List (ℕ × ℕ)} :
    Leads (Run late) (prepareCells tag sx sy pairs) := by
  induction pairs with
  | nil => exact .pure _
  | cons pair rest ih =>
    exact Leads.bind ((ofExcept_run _).bind fun _ => (declare_run _ _).bind fun _ => .pure _)
      fun _ => ih.bind fun _ => .pure _

lemma defineTable_run {table : ProductTable} : Leads (Run late) (defineTable t table) :=
  (ofExcept_run _).bind fun _ => addSubcomponent_run _

/-- A table for pieces of the operands reads its input where it is placed. -/
lemma addCell_run {corner : ℕ} {c : TableCell} :
    Leads (Contribution.Run late) (s.addCell tag corner c) := by
  refine (build_run ?_).bind fun _ => record_run.bind fun _ => addBits_run
  intro b out b' h
  obtain ⟨use, b₁, hread, h⟩ := bind_eq_ok.mp h
  obtain ⟨_, b₂, hdeclare, h⟩ := bind_eq_ok.mp h
  obtain ⟨_, b₃, hinstance, h⟩ := bind_eq_ok.mp h
  obtain ⟨-, rfl⟩ := pure_eq_ok.mp h
  obtain ⟨-, hreads⟩ := read_now hread
  have hports : List.Forall b₂.Reads [.signal "X" use] :=
    (hreads _).stays (declare_stays hdeclare)
  exact .tail (.tail (.single (.read hread)) (.declare hdeclare)) (instantiate_now hports hinstance)

lemma addCells_run {corner : ℕ} {defined : List ProductTable} {cells : List TableCell} :
    Leads (Contribution.Run late) (s.addCells tag corner defined cells) := by
  induction cells generalizing defined with
  | nil => exact .pure _
  | cons c rest ih =>
    refine .ite ((build_run defineTable_run).bind fun _ => ?_) ?_
    all_goals exact addCell_run.bind fun _ => ih

lemma addTables_run {region : Tiling.Rect} :
    Leads (Contribution.Run late) (s.addTables region) := by
  refine .ite (.pure _) ?_
  refine (build_run uniqueId_run).bind fun _ => (build_run ?_).bind fun _ => addCells_run
  exact readOperands_run.bind fun _ => prepareCells_run.bind fun _ =>
    (advance_run _ _).bind fun _ => .pure _

lemma placeFields_run {x y : OperandField} (hstart : s.start.Unspent) :
    Leads (Contribution.Run late) (s.placeFields label x y) := by
  refine (build_run ?_).bind fun _ => record_run.bind fun _ => .pure _
  simp only [readOperands, bind_assoc, pure_bind]
  exact RunFrom.moveTo hstart (.read fun _ => .read fun _ => .declare fun _ => .declare fun _ =>
    placeBlock_run)

lemma placeStages_run {lowest k : ℕ} {ready : Instant} {blocks : List Tiling.Placement}
    (hstart : s.start.Unspent) :
    Leads (Contribution.Run late) (s.placeStages label lowest k ready blocks) := by
  induction blocks generalizing k ready with
  | nil => exact .pure _
  | cons p rest ih =>
    exact (placeFields_run hstart).bind fun _ => (build_run now_run).bind fun _ =>
      ih.bind fun _ => .pure _

lemma addUp_run {width k : ℕ} {terms : List CascadeTerm} {sum : SignalId} {stages : List Stage}
    (hlate : late (postAdderName width)) :
    Leads (Contribution.Run late) (s.addUp label width k terms sum stages) := by
  induction stages generalizing k terms sum with
  | nil => exact .pure _
  | cons stage rest ih =>
    exact (build_run (placePostAdder_run hlate)).bind fun _ => record_run.bind fun _ => ih

lemma addCascade_run {c : ℕ} {blocks : List Tiling.Placement} (hstart : s.start.Unspent)
    (hlate : ∀ w, late (postAdderName w)) :
    Leads (Contribution.Run late) (s.addCascade c blocks) := by
  refine (placeStages_run hstart).bind fun ⟨stages, ready⟩ => ?_
  match stages with
  | [] => exact .pure _
  | [only] => exact addOperand_run
  | first :: second :: others =>
    exact (build_run ((addSubcomponent_run _).bind fun _ => moveTo_run _)).bind fun _ =>
      (addUp_run (hlate _)).bind fun _ => addOperand_run

lemma addCascades_run {ps : Array Tiling.Placement} {c : ℕ} {heads : List ℕ}
    (hstart : s.start.Unspent) (hlate : ∀ w, late (postAdderName w)) :
    Leads (Contribution.Run late) (s.addCascades ps c heads) := by
  induction heads generalizing c with
  | nil => exact .pure _
  | cons head heads ih => exact (addCascade_run hstart hlate).bind fun _ => ih

lemma addRegions_run {regions : List Tiling.Rect} :
    Leads (Contribution.Run late) (s.addRegions regions) := by
  induction regions with
  | nil => exact .pure _
  | cons r rest ih => exact addTables_run.bind fun _ => ih

lemma addTiling_run [Tiling.Surroundings] {options : MultiplierOptions} (hstart : s.start.Unspent)
    (hlate : ∀ w, late (postAdderName w)) : Leads (Contribution.Run late) (s.addTiling options) :=
  (build_run (ofExcept_run _)).bind fun _ => (addCascades_run hstart hlate).bind fun _ =>
    addRegions_run.bind fun _ => .pure _

/-- Every way to compute a product is a run of steps from where nothing is spent
of the cycle. Adders of blocks may start late. -/
lemma addProduct_run [Tiling.Surroundings] {options : MultiplierOptions}
    {architecture : Architecture} (hstart : s.start.Unspent)
    (hlate : architecture = .tiling → ∀ w, late (postAdderName w)) :
    Leads (Contribution.Run late) (s.addProduct options architecture) := by
  cases architecture with
  | singleTable => exact (addTable_run hstart).bind fun _ => .pure _
  | singleBlock => exact (addBlock_run hstart).bind fun _ => .pure _
  | rows => exact addRows_run.bind fun _ => .pure _
  | logic => exact addTables_run.bind fun _ => .pure _
  | tiling =>
    rw [addProduct, map_eq_pure_bind]
    exact (addTiling_run hstart (hlate rfl)).bind fun _ => .pure _

end Site

/-! ### Operators -/

/-- The names of adders. -/
def IsAdder (name : String) : Prop := ∃ width, name = rippleName width

/-- The names of the adders of blocks. -/
def IsPostAdder (name : String) : Prop := ∃ width, name = postAdderName width

/-- The elements that may start late in a wide adder. -/
def ChunkPlan.Late (p : ChunkPlan) (name : String) : Prop := p.Strained ∧ IsAdder name

/-- A wide adder is a run of steps with registers. Only by a strained plan adders
start late. -/
lemma LongAdder.steps_run {b b' : Builder} {p : ChunkPlan}
    (hpipelined : b.schedule.pipelined = true) (hunspent : b.schedule.now.Unspent)
    (h : LongAdder.steps t width b = .ok p b') : Run p.Late b b' := by
  obtain ⟨x0, b₁, hx0, h⟩ := bind_eq_ok.mp h
  obtain ⟨x1, b₂, hx1, h⟩ := bind_eq_ok.mp h
  obtain ⟨cin, b₃, hcin, h⟩ := bind_eq_ok.mp h
  obtain ⟨sum, b₄, hsum, h⟩ := bind_eq_ok.mp h
  obtain ⟨out, b₅, hout, h⟩ := bind_eq_ok.mp h
  obtain ⟨rfl, rfl⟩ := pure_eq_ok.mp h
  obtain ⟨hstays₁, hprompt₁⟩ := addInput_prompt hx0
  obtain ⟨hstays₂, hprompt₂⟩ := addInput_prompt hx1
  obtain ⟨hstays₃, hprompt₃⟩ := addInput_prompt hcin
  have hinputs : Run sum.plan.Late b b₃ :=
    .tail (.tail (.single (.addInput hx0)) (.addInput hx1)) (.addInput hcin)
  have hoperands : OperandsPrompt b₃ x0 x1 (some cin) :=
    { pipelined := hinputs.sameClock.pipelined.trans hpipelined
      now := by rwa [(hstays₁.trans (hstays₂.trans hstays₃)).now]
      first := hprompt₁.mono (hstays₂.trans hstays₃).later
      second := hprompt₂.mono hstays₃.later
      carry := by
        rintro _ ⟨⟩
        exact hprompt₃ }
  have hplace : (∀ w, sum.plan.Late (rippleName w)) ∨
      OperandsPrompt b₃ x0 x1 (some cin) ∧ ¬ sum.plan.Strained := by
    by_cases hstrained : sum.plan.Strained
    · exact .inl fun w => ⟨hstrained, w, rfl⟩
    · exact .inr ⟨hoperands, hstrained⟩
  exact hinputs.trans ((carrySelect_run hplace hsum).tail (.addOutput hout))

/-- A wide adder is a run of steps, if adders may start late. -/
lemma LongAdder.steps_run_of_late (hlate : ∀ w, late (rippleName w)) :
    Leads (Run late) (LongAdder.steps t width) :=
  (addInput_run _ _).bind fun _ => (addInput_run _ _).bind fun _ => (addInput_run _ _).bind fun _ =>
    Leads.bind (fun _ _ _ h => carrySelect_run (.inl hlate) h) fun _ =>
      (addOutput_run _ _ _).bind fun _ => .pure _

lemma reportAny_run (d : Option Diagnostic) : Leads (Run late) (reportAny d) := by
  cases d with
  | none => exact .pure _
  | some d => exact diagnose_run d

/-- Reports leave the schedule alone. -/
lemma reportAny_schedule {d : Option Diagnostic} {b b' : Builder} (h : reportAny d b = .ok () b') :
    b'.schedule = b.schedule := by
  cases d with
  | none =>
    obtain ⟨-, rfl⟩ := pure_eq_ok.mp h
    rfl
  | some d =>
    obtain rfl := modify_eq_ok.mp h
    rfl

lemma reportTiling_run (r : Option TilingReport) : Leads (Run late) (reportTiling r) := by
  cases r with
  | none => exact .pure _
  | some r => exact .ite (diagnose_run _) (.pure _)

/-- The elements that may start late in a multiplier. -/
def Architecture.Late : Architecture → String → Prop
  | .singleTable | .singleBlock => fun _ => False
  | .rows | .logic => IsAdder
  | .tiling => fun name => IsAdder name ∨ IsPostAdder name

/-- Where there is a heap, adders may. -/
lemma Architecture.late_of_heap {a : Architecture} (htable : a ≠ .singleTable)
    (hblock : a ≠ .singleBlock) (width : ℕ) : a.Late (rippleName width) := by
  cases a with
  | singleTable => exact absurd rfl htable
  | singleBlock => exact absurd rfl hblock
  | rows | logic => exact ⟨width, rfl⟩
  | tiling => exact .inl ⟨width, rfl⟩

namespace MultiplierPlan

variable {p : MultiplierPlan} {options : MultiplierOptions} {m : ProductModel} {x y : SignalId}
  {b b' : Builder}

/-- The heap of a multiplier is filled by a run of steps. -/
lemma fillHeap_run [Tiling.Surroundings] {r : Option TilingReport × Contribution} (hx : b.Prompt x)
    (hy : b.Prompt y)
    (h : p.fillHeap t options m x y b = .ok r b') : Run p.architecture.Late b b' := by
  obtain ⟨heap, s, b₁, c₁, -, henter, hproduct, rfl, -⟩ := fillHeap_eq_ok h
  refine (Site.enter_run henter).trans
    (Site.addProduct_run (Site.enter_unspent hx hy henter) ?_ hproduct)
  intro htiling w
  rw [htiling]
  exact .inr ⟨w, rfl⟩

/-- The product of two signals that are there at the start of a cycle is a run of
steps. -/
lemma Computes.run [Tiling.Surroundings] {r : MultiplierCircuit} (hunspent : b.schedule.now.Unspent)
    (hx : b.Prompt x) (hy : b.Prompt y) (h : p.Computes t options m x y b r b') :
    Run p.architecture.Late b b' := by
  cases h with
  | table _ _ hplace => exact placeTable_run hunspent hplace
  | block _ hplace => exact placeBlock_run hunspent hplace
  | heap htable hblock hfill hcompress =>
    exact (fillHeap_run hx hy hfill).trans
      (BitHeap.compress_run (Architecture.late_of_heap htable hblock) hcompress)

/-- A multiplier is a run of steps. -/
lemma steps_run [Tiling.Surroundings] {r : Multiplier} (hunspent : b.schedule.now.Unspent)
    (h : p.steps t options b = .ok r b') : Run r.plan.architecture.Late b b' := by
  obtain ⟨circuit, x, y, _, _, _, _, b₄, _, _, hfallback, htruncation, hx, hy, hcircuit, hreport,
    hout, rfl⟩ := steps_eq_ok h
  obtain ⟨hstaysX, hpromptX⟩ := addInput_prompt hx
  obtain ⟨hstaysY, hpromptY⟩ := addInput_prompt hy
  have hinputs : Run p.architecture.Late b b₄ :=
    .tail (.tail ((reportAny_run _ hfallback).trans (reportAny_run _ htruncation)) (.addInput hx))
      (.addInput hy)
  have hnow : b₄.schedule.now.Unspent := by
    rwa [(hstaysX.trans hstaysY).now, reportAny_schedule htruncation, reportAny_schedule hfallback]
  -- the order of the operands may be the other one
  have hoperands : b₄.Prompt ((ProductModel.forWidths p.wx p.wy p.signed).order x y).1 ∧
      b₄.Prompt ((ProductModel.forWidths p.wx p.wy p.signed).order x y).2 := by
    rw [ProductModel.order]
    split
    · exact ⟨hpromptY, hpromptX.mono hstaysY.later⟩
    · exact ⟨hpromptX.mono hstaysY.later, hpromptY⟩
  exact (hinputs.trans (hcircuit.run hnow hoperands.1 hoperands.2)).trans
    ((reportTiling_run _ hreport).tail (.addOutput hout))

end MultiplierPlan

namespace Shifter

lemma buildLevels_run {s : Shifter} {amount level : SignalId} {l count : ℕ} :
    Leads (Run late) (s.buildLevels t amount l level count) := by
  induction count generalizing l level with
  | zero => exact .pure _
  | succ count ih =>
    exact (read_run _).bind fun _ => (read_run _).bind fun _ => (advance_run _ _).bind fun _ =>
      (declare_run _ _).bind fun _ => ih

/-- A shifter is a run of steps. -/
lemma steps_run {s : Shifter} : Leads (Run late) (s.steps t) :=
  (addInput_run _ _).bind fun _ => (addInput_run _ _).bind fun _ => (read_run _).bind fun _ =>
    (declare_run _ _).bind fun _ => (read_run _).bind fun _ => (declare_run _ _).bind fun _ =>
      buildLevels_run.bind fun _ => (addOutput_run _ _ _).bind fun _ => .pure _

end Shifter

end Datapath
