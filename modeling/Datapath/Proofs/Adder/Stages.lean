/-
The stages of an addition in hardware.

* `Placed`: where an instance is placed. `ChunkPlan.layout`: the adders that a
  plan stands for, each in its stage.
* `ChunkPlan.overdue`: a sum of a chunk that is selected one cycle behind the
  stage of the plan.
* `Builder.Idle`: steps that place nothing and take no time; `Builder.Laid`: what
  a construction has placed, and the point in time that it has come to.
* `Addition.laid_ripple`, …, `Addition.laid_chunked`: what each part of an
  addition places.
* `layout_of_build`: a wide adder is laid out as its plan says, but for the sums
  that are overdue; `selection_overdue` is an adder with such sums.
-/
import Datapath.Proofs.Adder.Sum
import Datapath.Proofs.Construction.Additions
import Datapath.Proofs.Construction.Outcome

namespace Datapath

open Build

variable {t : Target} {p q start latest : Instant} {b b' : Builder}

/-! ### Layouts -/

/-- The component, the label and the cycle of an instance. -/
structure Placed where
  component : String
  label : String
  cycle : ℕ

def Instance.placed (i : Instance) : Placed := ⟨i.component, i.label, i.cycle⟩

/-- A ripple-carry adder. -/
def Placed.adder (width : ℕ) (label : String) (cycle : ℕ) : Placed :=
  ⟨rippleName width, label, cycle⟩

variable {l : List Placed}

/-- The adders for the sums of the chunk `j`, in the stage of its sums. The
`last` chunk needs no sum with a carry. -/
def Chunk.sumAdders (tag : String) (last : Bool) (c : Chunk) (j : ℕ) : List Placed :=
  if j = 0 then [.adder (c.size + 1) s!"{tag}_cin0" c.sumStage]
  else .adder (c.size + 1) s!"{tag}_zero{j}" c.sumStage ::
    if last then [] else [.adder (c.size + 1) s!"{tag}_one{j}" c.sumStage]

/-- The adder that resolves the carries of `count` chunks, if there are any. -/
def carryAdders (tag : String) (count stage : ℕ) : List Placed :=
  if count = 0 then [] else [.adder (2 * count) s!"{tag}_rawCarrySum" stage]

namespace ChunkPlan

/-- The sum of a chunk does not fit in the selection stage: sums are selected
behind the addition of the carries, and what is left of the period then is too
short. -/
def overdue (p : ChunkPlan) (t : Target) (c : Chunk) : Bool :=
  p.phase == .variable && decide (2 < p.size) &&
    decide ((0.0 + t.adderDelay (2 * (p.size - 2)) + t.adderDelay c.size).seconds > t.period)

/-- The chunks whose sums wait for a carry. -/
def selected (p : ChunkPlan) : List Chunk := p.chunks.tail

/-- The adders for the sums of all chunks, each in the stage of its sum. -/
def sumAdders (p : ChunkPlan) (tag : String) : List Placed :=
  p.chunks.zipIdx.flatMap fun (c, j) => c.sumAdders tag (j + 1 == p.size) j

/-- The adders that select the sums, in the stage of the selection or, for chunks
that are overdue, one cycle later. -/
def selectAdders (p : ChunkPlan) (t : Target) (tag : String) : List Placed :=
  (p.selected.zipIdx 1).map fun (c, i) =>
    .adder c.size s!"{tag}_res{i}" (p.selectStage + (p.overdue t c).toNat)

/-- The adders of a plan, each in its stage. -/
def layout (p : ChunkPlan) (t : Target) (tag : String) : List Placed :=
  if p.phase = .single then [.adder p.width s!"{tag}_add" 0]
  else p.sumAdders tag ++ carryAdders tag (p.size - 2) p.carryStage ++ p.selectAdders t tag

/-- The cycle in which all sums are selected. -/
def lastCycle (p : ChunkPlan) (t : Target) : ℕ :=
  p.selectStage + (p.selected.any (p.overdue t)).toNat

/-- The stages of a plan are those of its phase, and all sums of its chunks are
there in the first one. -/
structure Staged (p : ChunkPlan) : Prop where
  sumStage : ∀ c ∈ p.chunks, c.sumStage = 0
  stages : (p.carryStage, p.selectStage) = stages p.phase

lemma sumStage_of_mem_layChunks {offset : ℕ} {sizes : List ℕ} {c : Chunk}
    (h : c ∈ layChunks offset sizes) : c.sumStage = 0 := by
  induction sizes generalizing offset with
  | nil => cases h
  | cons size sizes ih =>
    rcases List.mem_cons.mp h with rfl | h
    · rfl
    · exact ih h

lemma staged_of_ofSizes {width : ℕ} {sizes : List ℕ} {phase : PlanPhase} {plan : ChunkPlan}
    (h : ofSizes width sizes phase = .ok plan) : plan.Staged ∧ plan.phase = phase := by
  rw [ofSizes] at h
  split_ifs at h
  cases h
  exact ⟨⟨fun _ hc => sumStage_of_mem_layChunks hc, rfl⟩, rfl⟩

/-- The plan of an addition has the stages of its phase, and only on a target with
registers it has several chunks. -/
lemma staged_of_make {width : ℕ} {budget : Float} {plan : ChunkPlan}
    (h : make t width budget = .ok plan) :
    plan.Staged ∧ (plan.phase ≠ .single → t.pipelined = true) := by
  simp only [make] at h
  split_ifs at h with hempty hbudget hone htwo hcollapsed
  · obtain ⟨hstaged, hphase⟩ := staged_of_ofSizes h
    exact ⟨hstaged, fun hne => absurd hphase hne⟩
  all_goals
    refine ⟨(staged_of_ofSizes h).1, fun _ => ?_⟩
    cases hp : t.pipelined
    · simp [hp] at hone
    · rfl

end ChunkPlan

/-! ### Time spent -/

/-- An element that starts at `p` does not end in the same cycle. -/
def Target.waits (t : Target) (p : Instant) (d : Delay) : Bool :=
  t.pipelined && decide ((p.criticalPath + d).seconds > t.period)

/-- The point in time behind an element that starts at `p`. -/
def Target.behind (t : Target) (p : Instant) (d : Delay) : Instant :=
  if t.waits p d then ⟨p.cycle + 1, d⟩ else ⟨p.cycle, p.criticalPath + d⟩

/-- The delay of the addition that resolves the carries of `count` chunks, from
the start of its cycle on. -/
def Target.carryDelay (t : Target) (count : ℕ) : Delay :=
  if count = 0 then 0.0 else 0.0 + t.adderDelay (2 * count)

/-- With registers an element does not take longer than a period. -/
def Target.HasRoom (t : Target) (d : Delay) : Prop :=
  t.pipelined = true → ¬ d.seconds > t.period

/-- At the start of a cycle nothing is spent of it. -/
lemma Instant.unspent_start (n : ℕ) : Unspent ⟨n, 0.0⟩ := rfl

namespace Target

variable {d : Delay}

lemma cycle_behind (t : Target) (p : Instant) (d : Delay) :
    (t.behind p d).cycle = p.cycle + (t.waits p d).toNat := by
  rw [behind]
  split_ifs with h <;> simp [h]

/-- An element does not wait where nothing is spent of the cycle. -/
lemma not_waits (hp : p.Unspent) (hd : t.HasRoom d) : t.waits p d = false := by
  rw [waits, Bool.and_eq_false_iff, decide_eq_false_iff_not]
  cases hpipelined : t.pipelined with
  | false => exact .inl rfl
  | true =>
    rw [hp]
    exact .inr (Delay.fits_zero_add (hd hpipelined))

lemma behind_unspent (hp : p.Unspent) (hd : t.HasRoom d) :
    t.behind p d = ⟨p.cycle, 0.0 + d⟩ := by
  rw [behind, not_waits hp hd, if_neg Bool.false_ne_true, hp]

end Target

namespace ChunkPlan

variable {plan : ChunkPlan} {c : Chunk}

lemma phase_of_not_degenerate (hphase : plan.phase ≠ .single) (h : ¬ plan.degenerate = true) :
    plan.phase = .variable := by
  rw [degenerate, beq_iff_eq] at h
  cases hp : plan.phase <;> simp_all

lemma Staged.stages_of_degenerate (h : plan.Staged) (hdegenerate : plan.degenerate = true) :
    plan.carryStage = 1 ∧ plan.selectStage = 2 := by
  have hstages := h.stages
  rw [beq_iff_eq.mp hdegenerate] at hstages
  exact Prod.mk.inj hstages

lemma Staged.stages_of_variable (h : plan.Staged) (hphase : plan.phase ≠ .single)
    (hdegenerate : ¬ plan.degenerate = true) : plan.carryStage = 1 ∧ plan.selectStage = 1 := by
  have hstages := h.stages
  rw [phase_of_not_degenerate hphase hdegenerate] at hstages
  exact Prod.mk.inj hstages

/-- By a degenerate plan sums are selected where nothing is spent of the cycle. -/
lemma overdue_of_degenerate (hdegenerate : plan.degenerate = true) (n : ℕ)
    (hc : t.HasRoom (t.adderDelay c.size)) :
    t.waits ⟨n, 0.0⟩ (t.adderDelay c.size) = plan.overdue t c := by
  rw [Target.not_waits (Instant.unspent_start n) hc, overdue, beq_iff_eq.mp hdegenerate]
  rfl

/-- By another plan they are selected behind the addition of the carries, if there
are any. -/
lemma overdue_of_variable (hphase : plan.phase ≠ .single) (hdegenerate : ¬ plan.degenerate = true)
    (hpipelined : t.pipelined = true) (n : ℕ) (hc : t.HasRoom (t.adderDelay c.size)) :
    t.waits ⟨n, t.carryDelay (plan.size - 2)⟩ (t.adderDelay c.size) = plan.overdue t c := by
  rw [overdue, phase_of_not_degenerate hphase hdegenerate]
  by_cases hcount : plan.size - 2 = 0
  · rw [hcount, decide_eq_false (by omega : ¬ 2 < plan.size)]
    exact Target.not_waits (Instant.unspent_start n) hc
  · rw [decide_eq_true (by omega : 2 < plan.size), Target.carryDelay, if_neg hcount, Target.waits,
      hpipelined]
    rfl

end ChunkPlan

/-! ### Steps that place nothing -/

/-- No signal is an output. -/
def Schedule.Internal (s : Schedule) : Prop := ∀ g ∈ s.signals.items, g.kind ≠ .output

/-- A schedule at the same point in time, with signals of its own only. -/
structure Schedule.Idle (s s' : Schedule) : Prop where
  clock : s.SameClock s'
  now : s'.now = s.now
  internal : s.Internal → s'.Internal

/-- Nothing is placed and no time has passed. -/
structure Builder.Idle (b b' : Builder) : Prop where
  schedule : b.schedule.Idle b'.schedule
  instances : b'.instances = b.instances

namespace Schedule

instance : IsPreorder Schedule Idle where
  refl _ := ⟨refl_of _ _, rfl, id⟩
  trans _ _ _ h h' :=
    ⟨trans_of _ h.clock h'.clock, h'.now.trans h.now, fun hs => h'.internal (h.internal hs)⟩

lemma declareAt_idle {name : String} {width : ℕ} {kind : SignalKind} {point : Instant}
    (hkind : kind ≠ .output) : Leads Idle (declareAt name width kind point) := by
  intro s id s' h
  have hclock := sameClock_declareAt _ _ _ _ h
  rw [declareAt] at h
  split at h <;> cases h
  refine ⟨hclock, rfl, fun hs g hg => ?_⟩
  rcases Array.mem_push.mp hg with hg | rfl
  · exact hs g hg
  · exact hkind

lemma declare_idle (name : String) (width : ℕ) : Leads Idle (declare name width) :=
  Leads.get.bind fun _ => declareAt_idle (by decide)

/-- A use of a signal changes nothing but its lifespan. -/
lemma read_idle (id : SignalId) : Leads Idle (read id) := by
  intro s use s' h
  have hclock := sameClock_read _ h
  rw [read] at h
  split at h
  case h_1 => cases h
  case h_2 =>
    split at h <;> cases h
    refine ⟨hclock, rfl, fun hs g hg => ?_⟩
    obtain ⟨i, hi⟩ := Array.mem_iff_getElem?.mp hg
    rw [← Arena.get?, Arena.get?_update] at hi
    split at hi
    · obtain ⟨g₀, hg₀, rfl⟩ := Option.map_eq_some_iff.mp hi
      exact hs g₀ (Array.mem_of_getElem? hg₀)
    · exact hs g (Array.mem_of_getElem? hi)

/-- An element that does not fail takes its time. -/
lemma advance_behind {s s' : Schedule} {d : Delay} {what : String} {inserted : Bool}
    (hclock : (forTarget t).SameClock s) (h : advance d what s = .ok inserted s') :
    s'.now = t.behind s.now d ∧ s'.signals = s.signals ∧ t.HasRoom d := by
  have hwaits : t.waits s.now d =
      (t.pipelined && decide ((s.criticalPath + d).seconds > t.period)) := rfl
  have hclock : s.period = t.period ∧ s.pipelined = t.pipelined := ⟨hclock.period, hclock.pipelined⟩
  rw [advance, hclock.1, hclock.2] at h
  rw [Target.behind, Target.HasRoom, hwaits]
  cases hpipelined : t.pipelined with
  | false =>
    rw [hpipelined] at h
    cases h
    exact ⟨rfl, rfl, fun hne => absurd hne (by decide)⟩
  | true =>
    simp only [hpipelined, Bool.not_true, Bool.false_eq_true, if_false] at h
    split_ifs at h with hlong hlate <;> cases h
    · exact ⟨by rw [decide_eq_true hlate]; rfl, rfl, fun _ => hlong⟩
    · exact ⟨by rw [decide_eq_false hlate]; rfl, rfl, fun _ => hlong⟩

end Schedule

instance : IsPreorder Builder Builder.Idle where
  refl _ := ⟨refl_of _ _, rfl⟩
  trans _ _ _ h h' := ⟨trans_of _ h.schedule h'.schedule, h'.instances.trans h.instances⟩

namespace Build

open Builder (Idle)

lemma schedule_idle {α : Type} {step : Scheduling α} (h : Leads Schedule.Idle step) :
    Leads Idle (schedule step) := by
  intro b a b' hb
  obtain ⟨s, hs, rfl⟩ := schedule_eq_ok.mp hb
  exact ⟨h hs, rfl⟩

lemma record_idle (event : Event) : Leads Idle (record event) :=
  .modify fun _ => ⟨refl_of _ _, rfl⟩

lemma declare_idle (name : String) (width : ℕ) : Leads Idle (declare name width) :=
  (schedule_idle (Schedule.declare_idle _ _)).bind fun _ =>
    (record_idle _).bind fun _ => .pure _

lemma read_idle (id : SignalId) : Leads Idle (read id) :=
  (schedule_idle (Schedule.read_idle _)).bind fun _ => (record_idle _).bind fun _ => .pure _

lemma addSubcomponent_idle (c : Component) : Leads Idle (addSubcomponent c) :=
  .modify fun _ => by split <;> exact ⟨refl_of _ _, rfl⟩

lemma diagnose_idle (d : Diagnostic) : Leads Idle (diagnose d) :=
  .modify fun _ => ⟨refl_of _ _, rfl⟩

end Build

lemma CarryIn.bind_idle (carry : CarryIn) : Leads Builder.Idle carry.bind := by
  cases carry with
  | constant bit => exact .pure _
  | signal id => exact (read_idle _).bind fun _ => .pure _

lemma Addition.readSums_idle (sums : List ChunkSums) : Leads Builder.Idle (readSums sums) := by
  induction sums with
  | nil => exact .pure _
  | cons s rest ih =>
    refine (read_idle _).bind fun _ => ?_
    cases s.raised with
    | none => exact ih
    | some raised => exact (read_idle _).bind fun _ => ih

lemma Addition.readAll_idle (ids : List SignalId) : Leads Builder.Idle (readAll ids) := by
  induction ids with
  | nil => exact .pure _
  | cons id rest ih => exact (read_idle _).bind fun _ => ih

/-- A new signal is made now. -/
lemma Build.declare_madeIn {name : String} {width : ℕ} {id : SignalId}
    (h : declare name width b = .ok id b') : b'.MadeIn id b.schedule.now.cycle := by
  obtain ⟨id', b₁, hschedule, h⟩ := bind_eq_ok.mp h
  obtain ⟨_, b₂, hrecord, h⟩ := bind_eq_ok.mp h
  obtain ⟨rfl, rfl⟩ := pure_eq_ok.mp h
  obtain ⟨s, hdeclare, rfl⟩ := schedule_eq_ok.mp hschedule
  obtain rfl := modify_eq_ok.mp hrecord
  obtain ⟨now, s₁, hget, hdeclare⟩ := bind_eq_ok.mp hdeclare
  obtain ⟨rfl, rfl⟩ := get_eq_ok.mp hget
  rw [Schedule.declareAt] at hdeclare
  split at hdeclare <;> cases hdeclare
  exact ⟨_, Arena.get?_alloc_self _ _, rfl⟩

/-! ### Placing -/

/-- A construction on the clock of a target that has come to the point `p` and
has placed `l`. No output is there yet. -/
structure Builder.Laid (t : Target) (p : Instant) (l : List Placed) (b : Builder) : Prop where
  clock : (Schedule.forTarget t).SameClock b.schedule
  now : b.schedule.now = p
  layout : b.instances.toList.map Instance.placed = l
  internal : b.schedule.Internal

namespace Builder.Laid

variable {d : Delay}

lemma idle (h : b.Laid t p l) (hidle : b.Idle b') : b'.Laid t p l where
  clock := trans_of _ h.clock hidle.schedule.clock
  now := hidle.schedule.now.trans h.now
  layout := by rw [hidle.instances, h.layout]
  internal := hidle.schedule.internal h.internal

lemma pipelined (h : b.Laid t p l) : b.schedule.pipelined = t.pipelined := h.clock.pipelined

lemma moveTo (h : b.Laid t p l) (hmove : Build.moveTo q b = .ok () b') : b'.Laid t q l := by
  obtain rfl := modify_eq_ok.mp hmove
  exact ⟨⟨h.clock.period, h.clock.pipelined⟩, rfl, h.layout, h.internal⟩

/-- Nothing is spent of the next cycle. -/
lemma nextCycle (h : b.Laid t p l) (hpipelined : t.pipelined = true)
    (hnext : Build.nextCycle b = .ok () b') : b'.Laid t ⟨p.cycle + 1, 0.0⟩ l := by
  obtain rfl := modify_eq_ok.mp hnext
  have hnow : b.schedule.nextCycle = { b.schedule with
      cycle := p.cycle + 1, criticalPath := 0.0 } := by
    rw [Schedule.nextCycle, if_pos (h.pipelined.trans hpipelined), ← h.now]
    rfl
  refine ⟨trans_of _ h.clock b.schedule.sameClock_nextCycle, ?_, h.layout, ?_⟩
  · change Schedule.now b.schedule.nextCycle = _
    rw [hnow]
    rfl
  · change Schedule.Internal b.schedule.nextCycle
    rw [hnow]
    exact h.internal

lemma advance {what : String} {inserted : Bool} (h : b.Laid t p l)
    (hadvance : Build.advance d what b = .ok inserted b') :
    b'.Laid t (t.behind p d) l ∧ t.HasRoom d := by
  obtain ⟨s, hs, rfl⟩ := schedule_eq_ok.mp hadvance
  obtain ⟨hnow, hsignals, hroom⟩ := Schedule.advance_behind h.clock hs
  refine ⟨⟨trans_of _ h.clock (Schedule.sameClock_advance _ _ hs), ?_, h.layout, ?_⟩, hroom⟩
  · rw [← h.now]
    exact hnow
  · change ∀ g ∈ s.signals.items, _
    rw [hsignals]
    exact h.internal

lemma instantiate {component label : String} {ports : List PortBinding} {id : InstanceId}
    (h : b.Laid t p l) (hinstance : Build.instantiate component label ports b = .ok id b') :
    b'.Laid t p (l ++ [⟨component, label, p.cycle⟩]) := by
  obtain ⟨hschedule, hinstances⟩ := instantiate_ok hinstance
  obtain rfl := h.now
  refine ⟨?_, ?_, ?_, ?_⟩
  · rw [hschedule]
    exact h.clock
  · rw [hschedule]
  · rw [hinstances, Array.toList_push, List.map_append, h.layout]
    rfl
  · rw [hschedule]
    exact h.internal

end Builder.Laid

namespace Addition

variable {a : Addition} {first : ChunkSums} {raw : Option SignalId}

/-- An adder is placed where it ends. -/
lemma laid_ripple {label : String} {x out : SignalId} {y : Option SignalId} {carry : CarryIn}
    {width : ℕ} (h : b.Laid t p l) (hripple : ripple t label x y carry width b = .ok out b') :
    b'.Laid t (t.behind p (t.adderDelay width))
        (l ++ [.adder width label (t.behind p (t.adderDelay width)).cycle]) ∧
      b'.MadeIn out (t.behind p (t.adderDelay width)).cycle ∧ t.HasRoom (t.adderDelay width) := by
  obtain ⟨b₁, use, b₂, port, b₃, carryPort, b₄, inserted, b₅, b₆, i, hcomponent, hx, hport, hcarry,
    hadvance, hdeclare, hinstance⟩ := ripple_eq_ok hripple
  have h₂ := (h.idle (addSubcomponent_idle _ hcomponent)).idle (read_idle _ hx)
  have h₃ : b₃.Laid t p l := by
    cases hport with
    | none => exact h₂
    | read hy => exact h₂.idle (read_idle _ hy)
  obtain ⟨h₅, hroom⟩ := (h₃.idle (carry.bind_idle hcarry)).advance hadvance
  refine ⟨(h₅.idle (declare_idle _ _ hdeclare)).instantiate hinstance, ?_, hroom⟩
  rw [Builder.MadeIn, (instantiate_ok hinstance).1, ← h₅.now]
  exact declare_madeIn hdeclare

/-- Where nothing is spent of a cycle an adder stays in it. -/
lemma laid_ripple_unspent {label : String} {x out : SignalId} {y : Option SignalId}
    {carry : CarryIn} {width : ℕ} (h : b.Laid t p l) (hp : p.Unspent)
    (hripple : ripple t label x y carry width b = .ok out b') :
    b'.Laid t ⟨p.cycle, 0.0 + t.adderDelay width⟩ (l ++ [.adder width label p.cycle]) := by
  obtain ⟨h', -, hroom⟩ := laid_ripple h hripple
  rwa [Target.behind_unspent hp hroom] at h'

/-- The sums of a chunk are there in the cycle that they start in. -/
lemma laid_chunkSums {j : ℕ} {c : Chunk} {last : Bool} {r : ChunkSums × Instant}
    (h : b.Laid a.target p l) (hstart : start.Unspent) (hlatest : latest.cycle = start.cycle)
    (hstage : c.sumStage = start.cycle)
    (hsums : a.chunkSums start latest j c last b = .ok r b') :
    r.2.cycle = start.cycle ∧ ∃ q, b'.Laid a.target q (l ++ c.sumAdders a.tag last j) := by
  obtain ⟨_, b₁, hmove, hrest⟩ := bind_eq_ok.mp hsums
  obtain ⟨xUse, b₂, hx, hrest⟩ := bind_eq_ok.mp hrest
  obtain ⟨yUse, b₃, hy, hrest⟩ := bind_eq_ok.mp hrest
  obtain ⟨sx, b₄, hsx, hrest⟩ := bind_eq_ok.mp hrest
  obtain ⟨sy, b₅, hsy, hrest⟩ := bind_eq_ok.mp hrest
  have h₅ : b₅.Laid a.target start l := (((((h.moveTo hmove).idle (read_idle _ hx)).idle
    (read_idle _ hy)).idle (declare_idle _ _ hsx)).idle (declare_idle _ _ hsy))
  have hready {b : Builder} {d : Delay} {l : List Placed} (latest : Instant)
      (hlatest : latest.cycle = start.cycle) (h : b.Laid a.target ⟨start.cycle, d⟩ l) :
      (latest.later b.schedule.now).cycle = start.cycle := by
    rw [h.now, Instant.cycle_later, hlatest, max_self]
  split at hrest
  case isTrue hfirst =>
    obtain ⟨sum, b₆, hripple, hrest⟩ := bind_eq_ok.mp hrest
    obtain ⟨_, b₇, hnow, hrest⟩ := bind_eq_ok.mp hrest
    obtain ⟨rfl, rfl⟩ := pure_eq_ok.mp hrest
    cases hnow
    have h₆ := laid_ripple_unspent h₅ hstart hripple
    rw [Chunk.sumAdders, if_pos hfirst, hstage]
    exact ⟨hready _ hlatest h₆, _, h₆⟩
  case isFalse hlater =>
    obtain ⟨plain, b₆, hplain, hrest⟩ := bind_eq_ok.mp hrest
    obtain ⟨_, b₇, hnow, hrest⟩ := bind_eq_ok.mp hrest
    cases hnow
    have h₆ := laid_ripple_unspent h₅ hstart hplain
    rw [Chunk.sumAdders, if_neg hlater, hstage]
    split at hrest
    case isTrue hlast =>
      obtain ⟨rfl, rfl⟩ := pure_eq_ok.mp hrest
      rw [if_pos hlast]
      exact ⟨hready _ hlatest h₆, _, h₆⟩
    case isFalse hlast =>
      obtain ⟨_, b₇, hback, hrest⟩ := bind_eq_ok.mp hrest
      obtain ⟨raised, b₈, hraised, hrest⟩ := bind_eq_ok.mp hrest
      obtain ⟨_, b₉, hnow, hrest⟩ := bind_eq_ok.mp hrest
      obtain ⟨rfl, rfl⟩ := pure_eq_ok.mp hrest
      cases hnow
      have h₈ := laid_ripple_unspent (h₆.moveTo hback) hstart hraised
      rw [List.append_assoc] at h₈
      rw [if_neg hlast]
      exact ⟨hready _ (hready _ hlatest h₆) h₈, _, h₈⟩

/-- So are the sums of all chunks from chunk `j` on. -/
lemma laid_sums {j n : ℕ} {cs : List Chunk} {r : List ChunkSums × Instant}
    (h : b.Laid a.target p l) (hstart : start.Unspent) (hlatest : latest.cycle = start.cycle)
    (hstages : ∀ c ∈ cs, c.sumStage = start.cycle) (hn : j + cs.length = n)
    (hsums : a.sums start j cs latest b = .ok r b') :
    r.2.cycle = start.cycle ∧ ∃ q, b'.Laid a.target q
      (l ++ (cs.zipIdx j).flatMap fun (c, i) => c.sumAdders a.tag (i + 1 == n) i) := by
  induction cs generalizing b l j p latest r with
  | nil =>
    obtain ⟨rfl, rfl⟩ := pure_eq_ok.mp hsums
    simpa using ⟨hlatest, p, h⟩
  | cons c cs ih =>
    obtain ⟨hstage, hstages⟩ := List.forall_mem_cons.mp hstages
    obtain ⟨⟨sum, latest₁⟩, b₁, hone, hrest⟩ := bind_eq_ok.mp hsums
    obtain ⟨⟨rest, latest₂⟩, b₂, hothers, hrest⟩ := bind_eq_ok.mp hrest
    obtain ⟨rfl, rfl⟩ := pure_eq_ok.mp hrest
    obtain ⟨hlatest₁, q₁, h₁⟩ := laid_chunkSums h hstart hlatest hstage hone
    have hlast : cs.isEmpty = (j + 1 == n) := by
      rw [Bool.eq_iff_iff, List.isEmpty_iff_length_eq_zero, beq_iff_eq]
      rw [List.length_cons] at hn
      omega
    obtain ⟨hlatest₂, q₂, h₂⟩ := ih h₁ hlatest₁ hstages (by rw [← hn, List.length_cons]; omega)
      hothers
    refine ⟨hlatest₂, q₂, ?_⟩
    rwa [hlast, List.append_assoc] at h₂

/-- The sums of all chunks of a plan that starts in the first cycle. -/
lemma laid_allSums {plan : ChunkPlan} {low : Chunk} {others : List Chunk} {ready : Instant}
    {s : ChunkSums} {r : List ChunkSums × Instant} {b₁ : Builder} (hstaged : plan.Staged)
    (hchunks : plan.chunks = low :: others) (h : b.Laid a.target ⟨0, 0.0⟩ l)
    (hfirst : a.chunkSums ⟨0, 0.0⟩ ⟨0, 0.0⟩ 0 low others.isEmpty b = .ok (s, ready) b₁)
    (hothers : a.sums ⟨0, 0.0⟩ 1 others ready b₁ = .ok r b') :
    r.2.cycle = 0 ∧ ∃ q, b'.Laid a.target q (l ++ plan.sumAdders a.tag) := by
  have hsize : 1 + others.length = plan.size := by
    rw [ChunkPlan.size, hchunks, List.length_cons, Nat.add_comm]
  obtain ⟨hlow, hhigh⟩ := List.forall_mem_cons.mp (hchunks ▸ hstaged.sumStage)
  have hstart := Instant.unspent_start 0
  obtain ⟨hready, q₁, h₁⟩ := laid_chunkSums h hstart rfl hlow hfirst
  obtain ⟨hready', q₂, h₂⟩ := laid_sums h₁ hstart hready hhigh hsize hothers
  have hsums : plan.sumAdders a.tag = low.sumAdders a.tag others.isEmpty 0 ++
      (others.zipIdx 1).flatMap fun (c, i) => c.sumAdders a.tag (i + 1 == plan.size) i := by
    rw [ChunkPlan.sumAdders, hchunks, List.zipIdx_cons, List.flatMap_cons]
    rfl
  rw [hsums, ← List.append_assoc]
  exact ⟨hready', q₂, h₂⟩

/-- With registers the carries are resolved in the next cycle. -/
lemma laid_rawCarries {middle : List ChunkSums} (hpipelined : a.target.pipelined = true)
    (h : b.Laid a.target p l) (hraw : a.rawCarries first middle b = .ok raw b') :
    b'.Laid a.target ⟨p.cycle + 1, a.target.carryDelay middle.length⟩
      (l ++ carryAdders a.tag middle.length (p.cycle + 1)) := by
  rw [rawCarries] at hraw
  split at hraw
  case isTrue hnone =>
    obtain ⟨_, b₁, hnext, hraw⟩ := bind_eq_ok.mp hraw
    obtain ⟨-, rfl⟩ := pure_eq_ok.mp hraw
    rw [List.isEmpty_iff.mp hnone, List.length_nil, carryAdders, Target.carryDelay, if_pos rfl,
      if_pos rfl, List.append_nil]
    exact h.nextCycle hpipelined hnext
  case isFalse hsome =>
    obtain ⟨_, b₁, hsums, hraw⟩ := bind_eq_ok.mp hraw
    obtain ⟨zeros, b₂, hzeros, hraw⟩ := bind_eq_ok.mp hraw
    obtain ⟨ones, b₃, hones, hraw⟩ := bind_eq_ok.mp hraw
    obtain ⟨_, b₄, hnext, hraw⟩ := bind_eq_ok.mp hraw
    obtain ⟨_, b₅, hread, hraw⟩ := bind_eq_ok.mp hraw
    obtain ⟨carry, b₆, hcarry, hraw⟩ := bind_eq_ok.mp hraw
    obtain ⟨sum, b₇, hripple, hraw⟩ := bind_eq_ok.mp hraw
    obtain ⟨-, rfl⟩ := pure_eq_ok.mp hraw
    have h₃ : b₃.Laid a.target p l := ((h.idle (readSums_idle _ hsums)).idle
      (declare_idle _ _ hzeros)).idle (declare_idle _ _ hones)
    have h₆ := ((h₃.nextCycle hpipelined hnext).idle (read_idle _ hread)).idle
      (declare_idle _ _ hcarry)
    have hcount : middle.length ≠ 0 := by
      rwa [List.isEmpty_iff_length_eq_zero] at hsome
    rw [carryAdders, Target.carryDelay, if_neg hcount, if_neg hcount]
    exact laid_ripple_unspent h₆ (Instant.unspent_start _) hripple

/-- The sum of a chunk is selected from the point `start` on. -/
lemma laid_selectChunk {i : ℕ} {c : Chunk} {s : ChunkSums} {out : SignalId}
    (h : b.Laid a.target p l) (hselect : a.selectChunk start first raw i c s b = .ok out b') :
    b'.Laid a.target (a.target.behind start (a.target.adderDelay c.size))
        (l ++ [.adder c.size s!"{a.tag}_res{i}"
          (a.target.behind start (a.target.adderDelay c.size)).cycle]) ∧
      b'.MadeIn out (a.target.behind start (a.target.adderDelay c.size)).cycle ∧
        a.target.HasRoom (a.target.adderDelay c.size) := by
  obtain ⟨_, b₁, hmove, hrest⟩ := bind_eq_ok.mp hselect
  have h₁ := h.moveTo hmove
  cases raw with
  | none | some =>
    obtain ⟨carry, b₂, hread, hrest⟩ := bind_eq_ok.mp hrest
    obtain ⟨bit, b₃, hdeclare, hripple⟩ := bind_eq_ok.mp hrest
    exact laid_ripple ((h₁.idle (read_idle _ hread)).idle (declare_idle _ _ hdeclare)) hripple

/-- The sums of the chunks from chunk `i` on are selected from the point `start`
on, in its cycle or, if they are late, in the next one. -/
lemma laid_select {late : Chunk → Bool}
    (hlate : ∀ c, a.target.HasRoom (a.target.adderDelay c.size) →
      a.target.waits start (a.target.adderDelay c.size) = late c)
    {i : ℕ} {cs : List Chunk} {sums : List ChunkSums} {seen : Bool} {r : List SignalId × Instant}
    (h : b.Laid a.target p l) (hlength : sums.length = cs.length)
    (hlatest : latest.cycle = start.cycle + seen.toNat)
    (hselect : a.select start first raw i (cs.zip sums) latest b = .ok r b') :
    r.2.cycle = start.cycle + (seen || cs.any late).toNat ∧ ∃ q, b'.Laid a.target q
      (l ++ (cs.zipIdx i).map fun (c, i) =>
        .adder c.size s!"{a.tag}_res{i}" (start.cycle + (late c).toNat)) := by
  induction cs generalizing b l i p latest r sums seen with
  | nil =>
    obtain ⟨rfl, rfl⟩ := pure_eq_ok.mp hselect
    simpa using ⟨hlatest, p, h⟩
  | cons c cs ih =>
    obtain _ | ⟨s, sums⟩ := sums
    · cases hlength
    obtain ⟨out, b₁, hone, hrest⟩ := bind_eq_ok.mp hselect
    obtain ⟨_, b₂, hnow, hrest⟩ := bind_eq_ok.mp hrest
    obtain ⟨⟨outs, latest₂⟩, b₃, hothers, hrest⟩ := bind_eq_ok.mp hrest
    obtain ⟨rfl, rfl⟩ := pure_eq_ok.mp hrest
    cases hnow
    obtain ⟨h₁, -, hroom⟩ := laid_selectChunk h hone
    have hcycle : (a.target.behind start (a.target.adderDelay c.size)).cycle =
        start.cycle + (late c).toNat := by
      rw [Target.cycle_behind, hlate c hroom]
    have hlatest₁ : (latest.later b₁.schedule.now).cycle =
        start.cycle + (seen || late c).toNat := by
      rw [Instant.cycle_later, h₁.now, hcycle, hlatest]
      cases seen <;> cases late c <;> simp
    obtain ⟨hlatest₂, q₂, h₂⟩ := ih h₁ (by simpa using hlength) hlatest₁ hothers
    rw [hcycle, List.append_assoc] at h₂
    refine ⟨?_, q₂, h₂⟩
    rw [hlatest₂, List.any_cons, Bool.or_assoc]

/-- The selection of the sums, from the point that the construction has come to. -/
lemma laid_selection {late : Chunk → Bool}
    (hlate : ∀ c, a.target.HasRoom (a.target.adderDelay c.size) →
      a.target.waits p (a.target.adderDelay c.size) = late c)
    {low : Chunk} {others : List Chunk} {sums : List ChunkSums} {width : ℕ} {out : SignalId}
    (h : b.Laid a.target p l) (hlength : sums.length = others.length)
    (hselect : (do
      let start ← now
      let _ ← Build.read first.plain
      let low ← Build.declare s!"{a.tag}_res0" low.size
      let (high, ready) ← a.select start first raw 1 (others.zip sums) start
      Build.moveTo ready
      readAll (low :: high)
      Build.declare s!"{a.tag}_R" width : Build SignalId) b = .ok out b') :
    ∃ q, q.cycle = p.cycle + (others.any late).toNat ∧
      b'.Laid a.target q (l ++ (others.zipIdx 1).map fun (c, i) =>
        .adder c.size s!"{a.tag}_res{i}" (p.cycle + (late c).toNat)) ∧
      b'.MadeIn out q.cycle := by
  obtain ⟨_, b₁, hnow, hselect⟩ := bind_eq_ok.mp hselect
  cases hnow
  rw [h.now] at hselect
  obtain ⟨_, b₁, hread, hselect⟩ := bind_eq_ok.mp hselect
  obtain ⟨low', b₂, hlow, hselect⟩ := bind_eq_ok.mp hselect
  obtain ⟨⟨high, ready⟩, b₃, hhigh, hselect⟩ := bind_eq_ok.mp hselect
  obtain ⟨_, b₄, hmove, hselect⟩ := bind_eq_ok.mp hselect
  obtain ⟨_, b₅, hall, hdeclare⟩ := bind_eq_ok.mp hselect
  have h₂ : b₂.Laid a.target p l := (h.idle (read_idle _ hread)).idle (declare_idle _ _ hlow)
  obtain ⟨hready, q, h₃⟩ := laid_select hlate h₂ hlength
    (show p.cycle = p.cycle + false.toNat from rfl) hhigh
  have h₅ := (h₃.moveTo hmove).idle (readAll_idle _ hall)
  refine ⟨ready, by rw [hready, Bool.false_or], h₅.idle (declare_idle _ _ hdeclare), ?_⟩
  rw [← h₅.now]
  exact declare_madeIn hdeclare

/-- By a plan of several chunks all adders are placed in their stages, but for the
sums that are overdue. -/
lemma laid_chunked {plan : ChunkPlan} {low : Chunk} {others : List Chunk} {out : SignalId}
    (hstaged : plan.Staged) (hpipelined : a.target.pipelined = true)
    (hphase : plan.phase ≠ .single) (hchunks : plan.chunks = low :: others)
    (h : b.Laid a.target ⟨0, 0.0⟩ l) (hadd : a.chunked plan low others b = .ok out b') :
    ∃ q, q.cycle = plan.lastCycle a.target ∧
      b'.Laid a.target q (l ++ plan.layout a.target a.tag) ∧ b'.MadeIn out q.cycle := by
  obtain ⟨start, b₀, hnow, hadd⟩ := bind_eq_ok.mp hadd
  cases hnow
  rw [h.now] at hadd
  obtain ⟨⟨firstSums, ready₁⟩, b₁, hfirst, hadd⟩ := bind_eq_ok.mp hadd
  obtain ⟨⟨otherSums, ready₂⟩, b₂, hothers, hadd⟩ := bind_eq_ok.mp hadd
  obtain ⟨_, b₃, hready, hadd⟩ := bind_eq_ok.mp hadd
  obtain ⟨raw, b₄, hraw, hadd⟩ := bind_eq_ok.mp hadd
  have hlength : otherSums.length = others.length := length_sums hothers
  have hcount : otherSums.dropLast.length = plan.size - 2 := by
    rw [List.length_dropLast, hlength, ChunkPlan.size, hchunks, List.length_cons]
    omega
  have hselected : plan.selected = others := by
    rw [ChunkPlan.selected, hchunks, List.tail_cons]
  obtain ⟨hready₂, q₂, h₂⟩ := laid_allSums hstaged hchunks h hfirst hothers
  have h₄ := laid_rawCarries hpipelined (h₂.moveTo hready) hraw
  rw [hready₂, hcount] at h₄
  rw [ChunkPlan.lastCycle, ChunkPlan.layout, if_neg hphase, ChunkPlan.selectAdders, hselected]
  by_cases hdegenerate : plan.degenerate = true
  · rw [if_pos hdegenerate] at hadd
    obtain ⟨_, b₅, hnext, hadd⟩ := bind_eq_ok.mp hadd
    obtain ⟨_, b₆, hdiagnose, hadd⟩ := bind_eq_ok.mp hadd
    obtain ⟨hcarry, hselect⟩ := hstaged.stages_of_degenerate hdegenerate
    have h₆ := (h₄.nextCycle hpipelined hnext).idle (diagnose_idle _ hdiagnose)
    have hfits (c : Chunk) (hc : a.target.HasRoom (a.target.adderDelay c.size)) :=
      ChunkPlan.overdue_of_degenerate hdegenerate 2 hc
    rw [hcarry, hselect]
    simpa using laid_selection hfits h₆ hlength hadd
  · rw [if_neg hdegenerate] at hadd
    obtain ⟨hcarry, hselect⟩ := hstaged.stages_of_variable hphase hdegenerate
    have hfits (c : Chunk) (hc : a.target.HasRoom (a.target.adderDelay c.size)) :=
      ChunkPlan.overdue_of_variable hphase hdegenerate hpipelined 1 hc
    rw [hcarry, hselect]
    simpa using laid_selection hfits h₄ hlength hadd

end Addition

/-! ### Wide adders -/

/-- A construction that has nothing but inputs, which are there from the start. -/
structure Builder.Opening (t : Target) (b : Builder) : Prop where
  clock : (Schedule.forTarget t).SameClock b.schedule
  now : b.schedule.now = ⟨0, 0.0⟩
  inputs : ∀ g ∈ b.schedule.signals.items, g.kind = .input ∧ g.made = ⟨0, 0.0⟩
  instances : b.instances = #[]
  nextUid : b.nextUid = 0

lemma Builder.opening_forTarget (name : String) (t : Target) : (forTarget name t).Opening t where
  clock := refl_of _ _
  now := rfl
  inputs _ hg := absurd hg (Array.not_mem_empty _)
  instances := rfl
  nextUid := rfl

namespace Builder.Opening

lemma addInput {name : String} {width : ℕ} {id : SignalId} (h : b.Opening t)
    (hinput : Build.addInput name width b = .ok id b') : b'.Opening t := by
  obtain ⟨id', b₁, hschedule, hrest⟩ := bind_eq_ok.mp hinput
  obtain ⟨_, b₂, hport, hrest⟩ := bind_eq_ok.mp hrest
  obtain ⟨_, b₃, hrecord, hrest⟩ := bind_eq_ok.mp hrest
  obtain ⟨rfl, rfl⟩ := pure_eq_ok.mp hrest
  obtain ⟨s, hdeclare, rfl⟩ := schedule_eq_ok.mp hschedule
  obtain rfl := modify_eq_ok.mp hport
  obtain rfl := modify_eq_ok.mp hrecord
  have hclock := trans_of _ h.clock (Schedule.sameClock_declareAt _ _ _ _ hdeclare)
  rw [Schedule.declareInput, Schedule.declareAt] at hdeclare
  split at hdeclare <;> cases hdeclare
  refine ⟨hclock, h.now, fun g hg => ?_, h.instances, h.nextUid⟩
  rcases Array.mem_push.mp hg with hg | rfl
  · exact h.inputs g hg
  · exact ⟨rfl, rfl⟩

/-- To wait for an input takes no time. -/
lemma syncTo {id : SignalId} (h : b.Opening t) (hsync : Build.syncTo id b = .ok () b') :
    b'.Opening t := by
  obtain ⟨s, hschedule, rfl⟩ := schedule_eq_ok.mp hsync
  have hclock := trans_of _ h.clock (Schedule.sameClock_syncTo _ hschedule)
  obtain ⟨g, s', hsignal, hmodify⟩ := bind_eq_ok.mp hschedule
  obtain ⟨hg, rfl⟩ := Schedule.signal_eq_ok.mp hsignal
  obtain rfl := modify_eq_ok.mp hmodify
  obtain ⟨hcycle, hpath⟩ := Instant.mk.inj (h.inputs g (Array.mem_of_getElem? hg)).2
  obtain ⟨hcycle', hpath'⟩ := Instant.mk.inj h.now
  have hgreater : Delay.greater 0.0 0.0 = 0.0 := by decide +kernel
  have hstays : (if b.schedule.cycle < g.cycle then b.schedule.moveTo ⟨g.cycle, g.criticalPath⟩
      else if g.cycle = b.schedule.cycle then
        { b.schedule with criticalPath := b.schedule.criticalPath.greater g.criticalPath }
      else b.schedule) = b.schedule := by
    rw [hcycle, hpath, hcycle', hpath', hgreater, if_neg (lt_irrefl 0), if_pos rfl, ← hpath']
  rw [hstays] at hclock ⊢
  exact ⟨hclock, h.now, h.inputs, h.instances, h.nextUid⟩

/-- No time has passed when a period begins that something is left of. -/
lemma closeSpent {budget : Float} (h : b.Opening t)
    (hclose : Datapath.closeSpent b = .ok budget b') (hbudget : ¬ budget ≤ 0.0) :
    b'.Opening t := by
  obtain ⟨_, _, hget, hrest⟩ := bind_eq_ok.mp hclose
  obtain ⟨rfl, rfl⟩ := get_eq_ok.mp hget
  split_ifs at hrest with hspent
  · obtain ⟨_, b₁, hnext, hrest⟩ := bind_eq_ok.mp hrest
    obtain ⟨_, _, hget, hrest⟩ := bind_eq_ok.mp hrest
    obtain ⟨rfl, rfl⟩ := get_eq_ok.mp hget
    obtain ⟨rfl, rfl⟩ := pure_eq_ok.mp hrest
    obtain rfl := modify_eq_ok.mp hnext
    have hzero : b.schedule.criticalPath = 0.0 := (Instant.mk.inj h.now).2
    have hnow : b.schedule.nextCycle = { b.schedule with
        cycle := b.schedule.cycle + 1, criticalPath := 0.0 } := by
      rw [Schedule.nextCycle, if_pos hspent.1]
    have hnone : b.schedule.period ≤ 0.0 := by
      have hle := hspent.2
      rwa [hzero, Delay.seconds_zero] at hle
    refine absurd ?_ hbudget
    change (if b.schedule.nextCycle.pipelined then
      b.schedule.nextCycle.period - b.schedule.nextCycle.criticalPath.seconds
        else b.schedule.nextCycle.period) ≤ 0.0
    rw [hnow, if_pos hspent.1, Delay.seconds_zero]
    exact sub_zero_le.mpr hnone
  · obtain ⟨_, _, hget, hrest⟩ := bind_eq_ok.mp hrest
    obtain ⟨rfl, rfl⟩ := get_eq_ok.mp hget
    obtain ⟨-, rfl⟩ := pure_eq_ok.mp hrest
    exact h

lemma awaitOperands {x y : SignalId} {cin : Option SignalId} {budget : Float} (h : b.Opening t)
    (hawait : Datapath.awaitOperands x y cin b = .ok budget b') (hbudget : ¬ budget ≤ 0.0) :
    b'.Opening t := by
  obtain ⟨_, b₁, hfirst, hrest⟩ := bind_eq_ok.mp hawait
  obtain ⟨_, b₂, hsecond, hrest⟩ := bind_eq_ok.mp hrest
  have h₂ := (h.syncTo hfirst).syncTo hsecond
  cases cin with
  | none => exact h₂.closeSpent hrest hbudget
  | some c =>
    obtain ⟨_, b₃, hcarry, hrest⟩ := bind_eq_ok.mp hrest
    exact (h₂.syncTo hcarry).closeSpent hrest hbudget

lemma laid (h : b.Opening t) : b.Laid t ⟨0, 0.0⟩ [] where
  clock := h.clock
  now := h.now
  layout := by rw [h.instances]; rfl
  internal g hg := by rw [(h.inputs g hg).1]; decide

end Builder.Opening

/-- The plan of an addition is refused if nothing is left of the period. -/
lemma ChunkPlan.budget_pos_of_make {width : ℕ} {budget : Float} {plan : ChunkPlan}
    (h : make t width budget = .ok plan) : ¬ budget ≤ 0.0 := by
  simp only [make] at h
  split_ifs at h with hempty hbudget <;> exact fun hle => hbudget (.inr hle)

/-- A plan with one adder is over in the first cycle. -/
lemma ChunkPlan.lastCycle_of_single {plan : ChunkPlan} (hstaged : plan.Staged)
    (hphase : plan.phase = .single) : plan.lastCycle t = 0 := by
  have hstages := hstaged.stages
  rw [hphase] at hstages
  have hoverdue : plan.overdue t = fun _ => false := by
    funext c
    rw [overdue, hphase]
    rfl
  rw [lastCycle, hoverdue, (Prod.mk.inj hstages).2]
  simp

/-- An addition that starts in the first cycle is laid out as its plan says. -/
lemma Addition.laid_planned {a : Addition} {plan : ChunkPlan} {r : CarrySelect}
    (hstaged : plan.Staged) (hpipelined : plan.phase ≠ .single → a.target.pipelined = true)
    (hchunks : plan.chunks ≠ []) (h : b.Laid a.target ⟨0, 0.0⟩ [])
    (hadd : (match plan.phase, plan.chunks with
      | .single, _ | _, [] => do
        return ⟨← ripple a.target s!"{a.tag}_add" a.x (some a.y) a.carryIn plan.width, plan⟩
      | _, first :: others => do
        return ⟨← a.chunked plan first others, plan⟩ : Build CarrySelect) b = .ok r b') :
    r.plan = plan ∧ ∃ q, q.cycle = plan.lastCycle a.target ∧
      b'.Laid a.target q (plan.layout a.target a.tag) ∧ b'.MadeIn r.result q.cycle := by
  have hone (hphase : plan.phase = .single) {out : SignalId} {b' : Builder}
      (hripple : ripple a.target s!"{a.tag}_add" a.x (some a.y) a.carryIn plan.width b =
        .ok out b') :
      ∃ q, q.cycle = plan.lastCycle a.target ∧
        b'.Laid a.target q (plan.layout a.target a.tag) ∧ b'.MadeIn out q.cycle := by
    obtain ⟨h', hmade, hroom⟩ := laid_ripple h hripple
    have hnow := Target.behind_unspent (Instant.unspent_start 0) hroom
    refine ⟨_, ?_, ?_, hmade⟩
    · rw [hnow, ChunkPlan.lastCycle_of_single hstaged hphase]
    · rw [ChunkPlan.layout, if_pos hphase]
      rw [hnow] at h' ⊢
      exact h'
  cases hphase : plan.phase <;> cases hplan : plan.chunks
  all_goals
    rw [hphase, hplan] at hadd
    obtain ⟨out, b₄, hout, hpure⟩ := bind_eq_ok.mp hadd
    obtain ⟨rfl, rfl⟩ := pure_eq_ok.mp hpure
    first
      | exact absurd hplan hchunks
      | exact ⟨rfl, hone hphase hout⟩
      | have hseveral : plan.phase ≠ .single := by simp [hphase]
        exact ⟨rfl, laid_chunked hstaged (hpipelined hseveral) hseveral hplan h hout⟩

/-- An addition of inputs is laid out as its plan says. -/
lemma carrySelect_laid {x y : SignalId} {cin : Option SignalId} {width : ℕ} {r : CarrySelect}
    (h : b.Opening t) (hadd : carrySelect t x y cin width b = .ok r b') :
    ∃ q, q.cycle = r.plan.lastCycle t ∧ b'.Laid t q (r.plan.layout t "csa0") ∧
      b'.MadeIn r.result q.cycle := by
  obtain ⟨budget, b₁, hawait, hadd⟩ := bind_eq_ok.mp hadd
  obtain ⟨plan, b₂, hplan, hadd⟩ := bind_eq_ok.mp hadd
  obtain ⟨hmake, rfl⟩ := ofExcept_eq_ok.mp hplan
  obtain ⟨n, b₃, hid, hadd⟩ := bind_eq_ok.mp hadd
  have h₁ := h.awaitOperands hawait (ChunkPlan.budget_pos_of_make hmake)
  obtain ⟨htag, h₃⟩ : s!"csa{n}" = "csa0" ∧ b₃.Laid t ⟨0, 0.0⟩ [] := by
    cases hid
    rw [h₁.nextUid]
    exact ⟨rfl, h₁.laid.clock, h₁.laid.now, h₁.laid.layout, h₁.laid.internal⟩
  obtain ⟨hstaged, hpipelined⟩ := ChunkPlan.staged_of_make hmake
  obtain ⟨hpartition, rfl⟩ := ChunkPlan.partition_of_make hmake
  have hchunks : plan.chunks ≠ [] := by
    intro hnone
    have hsum := hpartition.sum_sizes
    rw [ChunkPlan.sizes, hnone] at hsum
    exact absurd hsum (ChunkPlan.width_pos_of_make hmake).ne
  obtain ⟨rfl, hlaid⟩ := Addition.laid_planned (a := ⟨t, s!"csa{n}", x, y, _⟩) hstaged hpipelined
    hchunks h₃ hadd
  rwa [htag] at hlaid

/-- To wait for a signal that is made now takes no other cycle. -/
lemma Builder.Laid.syncTo {id : SignalId} (h : b.Laid t p l) (hmade : b.MadeIn id p.cycle)
    (hsync : Build.syncTo id b = .ok () b') : ∃ q, q.cycle = p.cycle ∧ b'.Laid t q l := by
  obtain ⟨g, hg, hmade⟩ := hmade
  obtain ⟨s, hschedule, rfl⟩ := schedule_eq_ok.mp hsync
  have hclock := trans_of _ h.clock (Schedule.sameClock_syncTo _ hschedule)
  obtain ⟨g', s', hsignal, hmodify⟩ := bind_eq_ok.mp hschedule
  obtain ⟨hg', rfl⟩ := Schedule.signal_eq_ok.mp hsignal
  obtain rfl : g = g' := Option.some.inj (hg.symm.trans hg')
  obtain rfl := modify_eq_ok.mp hmodify
  have hnow : b.schedule.cycle = p.cycle := congrArg Instant.cycle h.now
  have hcycle : b.schedule.cycle = g.cycle := hnow.trans hmade.symm
  rw [if_neg hcycle.not_lt, if_pos hcycle.symm] at hclock ⊢
  exact ⟨_, hnow, hclock, rfl, h.layout, h.internal⟩

/-- The only output of an operator is there at its latency. -/
lemma Builder.latency_of_push {g : Signal} {signals : Array Signal}
    (hinternal : ∀ g ∈ signals, g.kind ≠ .output) (hkind : g.kind = .output)
    (hsignals : b.schedule.signals.items = signals.push g) :
    b.finish.component.latency = g.cycle := by
  change ((b.schedule.signals.items.filter (·.kind == .output)).foldl
    (fun latest s => max latest s.cycle) 0) = g.cycle
  have hnone : signals.filter (·.kind == .output) = #[] := by
    rw [Array.filter_eq_empty_iff]
    intro g hg
    simpa using hinternal g hg
  have hone : (signals.push g).filter (·.kind == .output) = #[g] := by
    simp [hkind, hnone]
  rw [hsignals, hone]
  exact Nat.zero_max g.cycle

/-- An operator is over when its output is there. -/
lemma Builder.Laid.addOutput {name : String} {width : ℕ} {source id : SignalId}
    (h : b.Laid t p l) (hmade : b.MadeIn source p.cycle)
    (houtput : Build.addOutput name width source b = .ok id b') :
    b'.instances.toList.map Instance.placed = l ∧
      b'.finish.component.latency = p.cycle := by
  obtain ⟨_, b₁, hsync, hrest⟩ := bind_eq_ok.mp houtput
  obtain ⟨use, b₂, hread, hrest⟩ := bind_eq_ok.mp hrest
  obtain ⟨_, b₃, hrecord, hrest⟩ := bind_eq_ok.mp hrest
  obtain ⟨id', b₄, hdeclare, hrest⟩ := bind_eq_ok.mp hrest
  obtain ⟨point, b₅, hnow, hrest⟩ := bind_eq_ok.mp hrest
  obtain ⟨_, b₆, hport, hrest⟩ := bind_eq_ok.mp hrest
  obtain ⟨_, b₇, hlast, hrest⟩ := bind_eq_ok.mp hrest
  obtain ⟨q, hq, h₁⟩ := h.syncTo hmade hsync
  have h₃ := (h₁.idle (schedule_idle (Schedule.read_idle _) hread)).idle (record_idle _ hrecord)
  obtain ⟨s, hschedule, rfl⟩ := schedule_eq_ok.mp hdeclare
  obtain ⟨-, rfl⟩ := pure_eq_ok.mp hrest
  cases hnow
  obtain rfl := modify_eq_ok.mp hport
  obtain rfl := modify_eq_ok.mp hlast
  refine ⟨h₃.layout, ?_⟩
  obtain ⟨now, s₁, hget, hdeclareAt⟩ := bind_eq_ok.mp hschedule
  obtain ⟨rfl, rfl⟩ := get_eq_ok.mp hget
  rw [Schedule.declareAt] at hdeclareAt
  split at hdeclareAt <;> cases hdeclareAt
  refine (Builder.latency_of_push h₃.internal rfl rfl).trans ?_
  rw [← hq, ← h₃.now]

/-- **A wide adder has the stages of its plan, unless sums are overdue.** It is
made of the adders that its plan stands for: those for the sums of the chunks in
the stage of these sums, the one that resolves the carries in the stage of the
carries, and those that select the sums in the stage of the selection. Only sums
that are overdue are selected one cycle later, and then the latency of the adder
is one more than the stage of the selection, too. -/
theorem layout_of_build {width : ℕ} {a : LongAdder} {built : BuiltOperator}
    (h : LongAdder.build t width = .ok (a, built)) :
    built.component.instances.toList.map Instance.placed = a.plan.layout t "csa0" ∧
      a.latency = built.component.latency ∧
      a.latency = a.plan.selectStage + (a.plan.selected.any (a.plan.overdue t)).toNat := by
  rw [LongAdder.build] at h
  split_ifs at h
  obtain ⟨⟨plan, operator⟩, hconstruct, hpure⟩ := except_bind_eq_ok.mp h
  cases hpure
  obtain ⟨b, hsteps, rfl⟩ := construct_eq_ok hconstruct
  obtain ⟨x0, b₁, hx0, hsteps⟩ := bind_eq_ok.mp hsteps
  obtain ⟨x1, b₂, hx1, hsteps⟩ := bind_eq_ok.mp hsteps
  obtain ⟨cin, b₃, hcin, hsteps⟩ := bind_eq_ok.mp hsteps
  obtain ⟨sum, b₄, hsum, hsteps⟩ := bind_eq_ok.mp hsteps
  obtain ⟨out, b₅, houtput, hsteps⟩ := bind_eq_ok.mp hsteps
  obtain ⟨rfl, rfl⟩ := pure_eq_ok.mp hsteps
  have h₃ := (((Builder.opening_forTarget _ t).addInput hx0).addInput hx1).addInput hcin
  obtain ⟨q, hq, h₄, hmade⟩ := carrySelect_laid h₃ hsum
  obtain ⟨hlayout, hlatency⟩ := h₄.addOutput hmade houtput
  exact ⟨hlayout, rfl, hlatency.trans hq⟩

/-- A target on which two adders do not fit in one period, and chunks have one
bit. -/
def tight : Target :=
  { AffineDelays.standard with
    adder := 0.75
    adderPerBit := 0.0
    lateChunk := 1
    firstChunk := 1 : AffineDelays }.model ⟨⟨1.0⟩, true, true⟩

/-- A last bit is a chunk. -/
lemma laterSizes_one {budget slack : Float} {previous propagation : ℕ} :
    laterSizes t budget slack 1 previous propagation = ([1], false) := by
  rw [laterSizes, if_neg (by decide), if_pos (.inr (by decide))]

lemma ChunkPlan.make_tight : make tight 3 (1.0 - Delay.seconds 0.0) =
    .ok ⟨3, layChunks 0 [1, 1, 1], .variable, 1, 1⟩ := by
  have hbudget : ¬ ((1.0 - Delay.seconds 0.0).isNaN ∨ 1.0 - Delay.seconds 0.0 ≤ 0.0) := by
    decide +kernel
  have hchunk : tight.chunk 3 = 1 := rfl
  have hpipelined : tight.pipelined = true := rfl
  have hlast : 3 - wrap32 (2 * 1) = 1 := rfl
  rw [make, if_neg (by decide), if_neg hbudget]
  simp only [variableSizes, hchunk, hpipelined, hlast, laterSizes_one]
  rfl

open Runs in
/-- The middle chunk of a small adder is selected one cycle behind the selection
stage. -/
lemma LongAdder.build_tight :
    ∃ a built, LongAdder.build tight 3 = .ok (a, built) ∧
      (∃ i ∈ built.component.instances, i.label = "csa0_res1" ∧ i.cycle = 2) ∧
      a.plan.selectStage = 1 ∧ a.latency = 2 := by
  have hpipelined : tight.pipelined = true := rfl
  have hperiod : tight.period = 1.0 := by decide +kernel
  have hleaves : ¬ Delay.seconds 0.0 ≥ (1.0 : Float) := by decide +kernel
  have hnothing : Delay.greater 0.0 0.0 = 0.0 := by decide +kernel
  -- one adder fits in a cycle, and a second one does not
  have hone : tight.adderDelay 1 = (0.75 : Delay) := by decide +kernel
  have htwo : tight.adderDelay 2 = (0.75 : Delay) := by decide +kernel
  have hfits : ¬ Delay.seconds 0.75 > (1.0 : Float) := by decide +kernel
  have hafterNothing : (0.0 : Delay) + 0.75 = 0.75 := by decide +kernel
  have hafterAdder : (0.75 : Delay) + 0.75 = 1.5 := by decide +kernel
  have hlate : Delay.seconds 1.5 > (1.0 : Float) := by decide +kernel
  have hlater : (0.75 : Delay) > 0.0 := by decide +kernel
  have hsame : ¬ (0.75 : Delay) > 0.75 := by decide +kernel
  have hname : (rippleComponent 2).name ≠ (rippleComponent 1).name := by decide
  have hzeroText : Nat.repr 0 = "0" := rfl
  have honeText : Nat.repr 1 = "1" := rfl
  have htwoText : Nat.repr 2 = "2" := rfl
  simp [-Array.any_eq_true, LongAdder.build, LongAdder.steps, carrySelect, awaitOperands,
    Addition.ripple, Addition.chunked, Addition.chunkSums, Addition.sums, Addition.rawCarries,
    Addition.readSums, Addition.select, Addition.selectChunk, Addition.readAll, layChunks,
    ChunkPlan.degenerate, ChunkPlan.make_tight, Build.nextCycle, Schedule.nextCycle,
    Instant.later, CarryIn.bind, hpipelined, hperiod, hleaves, hnothing, hone, htwo, hfits,
    hafterNothing, hafterAdder, hlate, hlater, hsame, hname, hzeroText, honeText, htwoText,
    Builder.finish, Builder.finishWith]

theorem layout_of_build_tight :
    ∃ a built, LongAdder.build tight 3 = .ok (a, built) ∧
      built.component.instances.toList.map Instance.placed = a.plan.layout tight "csa0" ∧
      a.latency = built.component.latency ∧
      a.latency = a.plan.selectStage + (a.plan.selected.any (a.plan.overdue tight)).toNat := by
  obtain ⟨a, built, hbuild, -⟩ := LongAdder.build_tight
  exact ⟨a, built, hbuild, layout_of_build hbuild⟩

theorem selection_overdue :
    ∃ a built, LongAdder.build tight 3 = .ok (a, built) ∧
      (∃ i ∈ built.component.instances, i.label = "csa0_res1" ∧ i.cycle ≠ a.plan.selectStage) ∧
      a.latency ≠ a.plan.selectStage := by
  obtain ⟨a, built, hbuild, ⟨i, hi, hlabel, hcycle⟩, hselect, hlatency⟩ := LongAdder.build_tight
  refine ⟨a, built, hbuild, ⟨i, hi, hlabel, ?_⟩, ?_⟩
  · rw [hcycle, hselect]
    decide
  · rw [hlatency, hselect]
    decide

end Datapath
