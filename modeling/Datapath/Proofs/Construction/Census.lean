/-
The elements of an operator, counted by kind.

* `Part`: the kinds of elements that a tiled product is made of, told by how
  their names begin; `Component.countPart`: how many of them an operator has.
* `Grows`: the numbers grow by some amount. The amounts of steps in sequence add
  up (`Leads.add`), and steps are quiet if the amount is zero.
* `placeBlock_grows`, `placePostAdder_grows`: an element is counted once.
* `carrySelect_quiet`, `BitHeap.compress_quiet`: additions and compressions place
  none of these elements.
-/
import Datapath.Proofs.Construction.Additions
import Mathlib.Algebra.Group.Pi.Basic

namespace Datapath

/-! ### Kinds of elements -/

/-- The kinds of elements that a tiled product is made of. -/
inductive Part where
  | block
  | postAdder
  | table
  deriving DecidableEq

namespace Part

/-- What the names of the elements of a kind begin with. -/
def mark : Part → String
  | block => "DSPBlock_"
  | postAdder => "DSPPostAdder_"
  | table => "SmallMultTable_"

/-- The name is that of an element of the kind. -/
def marks (p : Part) (name : String) : Bool := p.mark.toList.isPrefixOf name.toList

/-- What an element of this name counts. -/
def tally (name : String) (p : Part) : ℕ := if p.marks name then 1 else 0

lemma tally_block (wx wy : ℕ) : tally (blockName wx wy) = Pi.single block 1 := by
  funext p
  cases p <;> simp [tally, marks, mark, blockName, toString]

lemma tally_postAdder (width : ℕ) : tally (postAdderName width) = Pi.single postAdder 1 := by
  funext p
  cases p <;> simp [tally, marks, mark, postAdderName, toString]

lemma tally_table (t : ProductTable) : tally t.name = Pi.single table 1 := by
  funext p
  unfold ProductTable.name
  generalize ProductTable.name.sign t.signedX = signX
  generalize ProductTable.name.sign t.signedY = signY
  cases p <;> simp [tally, marks, mark, toString]

lemma tally_ripple (width : ℕ) : tally (rippleName width) = 0 := by
  funext p
  cases p <;> simp [tally, marks, mark, rippleName, toString]

lemma tally_compressor (inputs : ℕ) : tally (compressorName inputs) = 0 := by
  funext p
  cases p <;> simp [tally, marks, mark, compressorName, toString]

end Part

/-- The number of elements of a kind in an operator. -/
def Component.countPart (c : Component) (p : Part) : ℕ :=
  c.instances.toList.countP fun i => p.marks i.component

/-- The number of elements of each kind so far. -/
def Builder.census (b : Builder) (p : Part) : ℕ :=
  b.instances.toList.countP fun i => p.marks i.component

/-! ### Steps by which the numbers grow -/

section Grows

variable {ε σ α β : Type} {count : σ → Part → ℕ} {d d' : Part → ℕ} {s s' s'' : σ}
  {x : EStateM ε σ α} {f : α → EStateM ε σ β}

/-- The numbers of elements grow by `d`. -/
def Grows (count : σ → Part → ℕ) (d : Part → ℕ) (s s' : σ) : Prop := count s' = count s + d

lemma Grows.trans (h : Grows count d s s') (h' : Grows count d' s' s'') :
    Grows count (d + d') s s'' := by
  rw [Grows, h', h, add_assoc]

instance : IsPreorder σ (Grows count 0) where
  refl _ := (add_zero _).symm
  trans _ _ _ h h' := by simpa using h.trans h'

namespace Leads

/-- The amounts of steps in sequence add up. -/
lemma add (hx : Leads (Grows count d) x) (hf : ∀ a, Leads (Grows count d') (f a)) :
    Leads (Grows count (d + d')) (x >>= f) := by
  intro _ _ _ h
  obtain ⟨a, s', h₁, h₂⟩ := bind_eq_ok.mp h
  exact (hx h₁).trans (hf a h₂)

/-- Quiet steps come before others. -/
lemma quietly (hx : Leads (Grows count 0) x) (hf : ∀ a, Leads (Grows count d) (f a)) :
    Leads (Grows count d) (x >>= f) := by
  simpa using hx.add hf

/-- Quiet steps come behind others. -/
lemma settled (hx : Leads (Grows count d) x) (hf : ∀ a, Leads (Grows count 0) (f a)) :
    Leads (Grows count d) (x >>= f) := by
  simpa using hx.add hf

end Leads

end Grows

namespace Build

open Builder (census)

variable {α : Type}

/-- Steps that place no instance are quiet. -/
lemma quiet_of_sameInstances {step : Build α} (h : Leads Builder.SameInstances step) :
    Leads (Grows census 0) step := by
  intro b a b' hb
  have hsame := (h hb).instances
  funext p
  rw [census, hsame]
  rfl

/-- An instance is counted by its name. -/
lemma instantiate_grows (component label : String) (ports : List PortBinding) :
    Leads (Grows census (Part.tally component)) (instantiate component label ports) := by
  intro b id b' h
  obtain ⟨-, hinstances⟩ := instantiate_ok h
  funext p
  rw [census, hinstances, Array.toList_push, List.countP_append, List.countP_singleton]
  rfl

lemma moveTo_quiet (point : Instant) : Leads (Grows census 0) (moveTo point) :=
  quiet_of_sameInstances (sameInstances_moveTo point)

lemma nextCycle_quiet : Leads (Grows census 0) nextCycle :=
  quiet_of_sameInstances sameInstances_nextCycle

lemma now_quiet : Leads (Grows census 0) now := quiet_of_sameInstances sameInstances_now

lemma declare_quiet (name : String) (width : ℕ) : Leads (Grows census 0) (declare name width) :=
  quiet_of_sameInstances (sameInstances_declare name width)

lemma read_quiet (id : SignalId) : Leads (Grows census 0) (read id) :=
  quiet_of_sameInstances (sameInstances_read id)

lemma advance_quiet (delay : Delay) (what : String) :
    Leads (Grows census 0) (advance delay what) :=
  quiet_of_sameInstances (sameInstances_advance delay what)

lemma signal_quiet (id : SignalId) : Leads (Grows census 0) (schedule (Schedule.signal id)) :=
  quiet_of_sameInstances (sameInstances_schedule (Schedule.sameClock_signal id))

lemma rewindTo_quiet (id : SignalId) : Leads (Grows census 0) (schedule (Schedule.rewindTo id)) :=
  quiet_of_sameInstances (sameInstances_rewindTo id)

lemma syncTo_quiet (id : SignalId) : Leads (Grows census 0) (syncTo id) :=
  quiet_of_sameInstances (sameInstances_syncTo id)

lemma addInput_quiet (name : String) (width : ℕ) : Leads (Grows census 0) (addInput name width) :=
  quiet_of_sameInstances (sameInstances_addInput name width)

lemma addOutput_quiet (name : String) (width : ℕ) (source : SignalId) :
    Leads (Grows census 0) (addOutput name width source) :=
  quiet_of_sameInstances (sameInstances_addOutput name width source)

lemma addSubcomponent_quiet (c : Component) : Leads (Grows census 0) (addSubcomponent c) :=
  quiet_of_sameInstances (sameInstances_addSubcomponent c)

lemma diagnose_quiet (d : Diagnostic) : Leads (Grows census 0) (diagnose d) :=
  quiet_of_sameInstances (sameInstances_diagnose d)

lemma uniqueId_quiet : Leads (Grows census 0) uniqueId :=
  quiet_of_sameInstances sameInstances_uniqueId

lemma ofExcept_quiet (x : Except BuildError α) : Leads (Grows census 0) (ofExcept x) :=
  .of_eq fun _ _ _ h => (ofExcept_eq_ok.mp h).2

end Build

open Build
open Builder (census)

variable {t : Target} {tag label : String} {width : ℕ}

/-! ### Elements -/

/-- A block is one block. -/
lemma placeBlock_grows (x y : SignalId) :
    Leads (Grows census (Pi.single .block 1)) (placeBlock t x y label) := by
  refine (signal_quiet x).quietly fun gx => (signal_quiet y).quietly fun gy =>
    (addSubcomponent_quiet _).quietly fun _ => (read_quiet x).quietly fun _ =>
      (read_quiet y).quietly fun _ => (advance_quiet _ _).quietly fun _ =>
        (declare_quiet _ _).quietly fun _ => ?_
  rw [← Part.tally_block gx.width gy.width]
  exact (instantiate_grows _ _ _).settled fun _ => .pure _

/-- The adder of a block is one adder. -/
lemma placePostAdder_grows (sum product : SignalId) :
    Leads (Grows census (Pi.single .postAdder 1)) (placePostAdder t sum product width label) := by
  rw [← Part.tally_postAdder width]
  exact (read_quiet sum).quietly fun _ => (read_quiet product).quietly fun _ =>
    (advance_quiet _ _).quietly fun _ => (declare_quiet _ _).quietly fun _ =>
      (instantiate_grows _ _ _).settled fun _ => .pure _

/-! ### Additions -/

lemma CarryIn.bind_quiet (carry : CarryIn) : Leads (Grows census 0) carry.bind := by
  cases carry with
  | constant bit => exact .pure _
  | signal id => exact (read_quiet id).bind fun _ => .pure _

namespace Addition

variable {a : Addition} {start latest : Instant} {first : ChunkSums} {raw : Option SignalId}

/-- An adder is none of the elements that are counted. -/
lemma ripple_quiet (x : SignalId) (y : Option SignalId) (carry : CarryIn) (width : ℕ) :
    Leads (Grows census 0) (ripple t label x y carry width) := by
  have hadder : ∀ ports, Leads (Grows census 0) (instantiate (rippleName width) label ports) := by
    rw [← Part.tally_ripple width]
    exact instantiate_grows _ _
  refine (addSubcomponent_quiet _).bind fun _ => (read_quiet x).bind fun _ => ?_
  cases y with
  | none =>
    exact (CarryIn.bind_quiet carry).bind fun _ => (advance_quiet _ _).bind fun _ =>
      (declare_quiet _ _).bind fun _ => (hadder _).bind fun _ => .pure _
  | some y =>
    exact (read_quiet y).bind fun _ => (CarryIn.bind_quiet carry).bind fun _ =>
      (advance_quiet _ _).bind fun _ => (declare_quiet _ _).bind fun _ =>
        (hadder _).bind fun _ => .pure _

lemma chunkSums_quiet (j : ℕ) (c : Chunk) (last : Bool) :
    Leads (Grows census 0) (a.chunkSums start latest j c last) := by
  refine (moveTo_quiet _).bind fun _ => (read_quiet _).bind fun _ => (read_quiet _).bind fun _ =>
    (declare_quiet _ _).bind fun _ => (declare_quiet _ _).bind fun _ => .ite ?_ ?_
  · exact (ripple_quiet _ _ _ _).bind fun _ => now_quiet.bind fun _ => .pure _
  · refine (ripple_quiet _ _ _ _).bind fun _ => now_quiet.bind fun _ => .ite (.pure _) ?_
    exact (moveTo_quiet _).bind fun _ => (ripple_quiet _ _ _ _).bind fun _ =>
      now_quiet.bind fun _ => .pure _

lemma sums_quiet (j : ℕ) (cs : List Chunk) :
    Leads (Grows census 0) (a.sums start j cs latest) := by
  induction cs generalizing j latest with
  | nil => exact .pure _
  | cons c cs ih => exact (chunkSums_quiet _ _ _).bind fun _ => (ih _).bind fun _ => .pure _

lemma readSums_quiet (sums : List ChunkSums) : Leads (Grows census 0) (readSums sums) := by
  induction sums with
  | nil => exact .pure _
  | cons s rest ih =>
    refine (read_quiet _).bind fun _ => ?_
    cases s.raised with
    | none => exact ih
    | some raised => exact (read_quiet raised).bind fun _ => ih

lemma rawCarries_quiet (middle : List ChunkSums) :
    Leads (Grows census 0) (a.rawCarries first middle) :=
  .ite (nextCycle_quiet.bind fun _ => .pure _) <|
    (readSums_quiet _).bind fun _ => (declare_quiet _ _).bind fun _ =>
      (declare_quiet _ _).bind fun _ => nextCycle_quiet.bind fun _ =>
        (read_quiet _).bind fun _ => (declare_quiet _ _).bind fun _ =>
          (ripple_quiet _ _ _ _).bind fun _ => .pure _

lemma selectChunk_quiet (i : ℕ) (c : Chunk) (s : ChunkSums) :
    Leads (Grows census 0) (a.selectChunk start first raw i c s) := by
  refine (moveTo_quiet _).bind fun _ => ?_
  cases raw <;>
    exact (read_quiet _).bind fun _ => (declare_quiet _ _).bind fun _ => ripple_quiet _ _ _ _

lemma select_quiet (i : ℕ) (rest : List (Chunk × ChunkSums)) :
    Leads (Grows census 0) (a.select start first raw i rest latest) := by
  induction rest generalizing i latest with
  | nil => exact .pure _
  | cons head rest ih =>
    exact (selectChunk_quiet _ _ _).bind fun _ => now_quiet.bind fun _ =>
      (ih _).bind fun _ => .pure _

lemma readAll_quiet (ids : List SignalId) : Leads (Grows census 0) (readAll ids) := by
  induction ids with
  | nil => exact .pure _
  | cons id rest ih => exact (read_quiet id).bind fun _ => ih

lemma chunked_quiet (p : ChunkPlan) (first : Chunk) (others : List Chunk) :
    Leads (Grows census 0) (a.chunked p first others) := by
  refine now_quiet.bind fun _ => (chunkSums_quiet _ _ _).bind fun _ =>
    (sums_quiet _ _).bind fun _ => (moveTo_quiet _).bind fun _ =>
      (rawCarries_quiet _).bind fun _ => .ite ?_ ?_
  on_goal 1 => refine nextCycle_quiet.bind fun _ => (diagnose_quiet _).bind fun _ => ?_
  all_goals
    exact now_quiet.bind fun _ => (read_quiet _).bind fun _ => (declare_quiet _ _).bind fun _ =>
      (select_quiet _ _).bind fun _ => (moveTo_quiet _).bind fun _ =>
        (readAll_quiet _).bind fun _ => declare_quiet _ _

end Addition

lemma awaitOperands_quiet (x y : SignalId) (cin : Option SignalId) :
    Leads (Grows census 0) (awaitOperands x y cin) := by
  have hclose : Leads (Grows census 0) closeSpent :=
    Leads.get.bind fun _ => .ite (nextCycle_quiet.bind fun _ => Leads.get.bind fun _ => .pure _)
      (Leads.get.bind fun _ => .pure _)
  refine (syncTo_quiet _).bind fun _ => (syncTo_quiet _).bind fun _ => ?_
  cases cin with
  | none => exact hclose
  | some c => exact (syncTo_quiet c).bind fun _ => hclose

/-- An addition places none of the elements that are counted. -/
lemma carrySelect_quiet (x y : SignalId) (cin : Option SignalId) (width : ℕ) :
    Leads (Grows census 0) (carrySelect t x y cin width) := by
  refine (awaitOperands_quiet _ _ _).bind fun _ => (ofExcept_quiet _).bind fun plan =>
    uniqueId_quiet.bind fun _ => ?_
  cases plan.phase <;> cases plan.chunks
  all_goals
    first
      | exact (Addition.ripple_quiet _ _ _ _).bind fun _ => .pure _
      | exact (Addition.chunked_quiet _ _ _).bind fun _ => .pure _

/-! ### Compressions -/

lemma readSources_quiet (sources : List BitSource) :
    Leads (Grows census 0) (readSources sources) := by
  induction sources with
  | nil => exact .pure _
  | cons source rest ih =>
    cases source with
    | one => exact ih
    | bit b => exact (read_quiet _).bind fun _ => ih

/-- A compressor is none of the elements that are counted. -/
lemma compressor_quiet (w : ℕ) (inputs : List HeapBit) :
    Leads (Grows census 0) (compressor t label w inputs) := by
  have hadder : ∀ ports, Leads (Grows census 0)
      (instantiate (compressorName inputs.length) label ports) := by
    rw [← Part.tally_compressor inputs.length]
    exact instantiate_grows _ _
  exact (moveTo_quiet _).bind fun _ => (readSources_quiet _).bind fun _ =>
    (declare_quiet _ _).bind fun _ => (advance_quiet _ _).bind fun _ =>
      (read_quiet _).bind fun _ => (declare_quiet _ _).bind fun _ =>
        (read_quiet _).bind fun _ => (addSubcomponent_quiet _).bind fun _ =>
          (hadder _).bind fun _ => now_quiet.bind fun _ => .pure _

namespace Round

variable {r : Round}

lemma fullAdders_quiet (w k : ℕ) (bits : List HeapBit) :
    Leads (Grows census 0) (r.fullAdders w k bits) := by
  induction k, bits using fullAdders.induct with
  | case1 k a b c rest ih => exact (compressor_quiet _ _).bind fun _ => ih.bind fun _ => .pure _
  | case2 k left hshort =>
    rw [fullAdders]
    · exact .pure _
    · exact hshort

lemma reduceColumn_quiet (w : ℕ) (carries column : List HeapBit) :
    Leads (Grows census 0) (r.reduceColumn w carries column) :=
  (fullAdders_quiet _ _ _).bind fun _ =>
    .ite ((compressor_quiet _ _).bind fun _ => .pure _) (.pure _)

lemma reduceColumns_quiet (w : ℕ) (carries : List HeapBit) (columns : List (List HeapBit)) :
    Leads (Grows census 0) (r.reduceColumns w carries columns) := by
  induction columns generalizing w carries with
  | nil => exact .pure _
  | cons column columns ih =>
    exact (reduceColumn_quiet _ _ _).bind fun _ => (ih _ _).bind fun _ => .pure _

end Round

lemma reduceAll_quiet (fuel done : ℕ) (columns : List (List HeapBit)) :
    Leads (Grows census 0) (reduceAll t tag fuel done columns) := by
  induction fuel generalizing done columns with
  | zero => exact .pure _
  | succ fuel ih =>
    exact .ite ((Round.reduceColumns_quiet _ _ _).bind fun _ => (ih _ _).bind fun _ => .pure _)
      (.pure _)

lemma declareRows_quiet (r : ℕ) (columns : List (List HeapBit)) (count : ℕ) :
    Leads (Grows census 0) (declareRows tag width r columns count) := by
  induction count generalizing r with
  | zero => exact .pure _
  | succ count ih => exact (declare_quiet _ _).bind fun _ => (ih _).bind fun _ => .pure _

lemma layRows_quiet (columns : List (List HeapBit)) :
    Leads (Grows census 0) (layRows tag width columns) := by
  rw [layRows]
  cases HeapBit.latest columns.flatten with
  | none => exact (readSources_quiet _).bind fun _ => declareRows_quiet _ _ _
  | some bit =>
    exact (moveTo_quiet _).bind fun _ => (readSources_quiet _).bind fun _ =>
      declareRows_quiet _ _ _

lemma sumRows_quiet (rows : List HeapRow) : Leads (Grows census 0) (sumRows t width rows) := by
  match rows with
  | [] => exact .pure _
  | [a] => exact .pure _
  | [a, b] => exact (carrySelect_quiet _ _ _ _).bind fun _ => .pure _
  | a :: b :: c :: rest => exact .pure _

/-- A compression places none of the elements that are counted. -/
lemma BitHeap.compress_quiet (h : BitHeap) : Leads (Grows census 0) (h.compress t) :=
  uniqueId_quiet.bind fun _ => (reduceAll_quiet _ _ _).bind fun _ => (layRows_quiet _).bind fun _ =>
    (sumRows_quiet _).bind fun _ => .pure _

end Datapath
