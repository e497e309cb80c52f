/-
Constructions as runs of steps.

* `Leads`: steps that lead from every state to a related one.
* `Builder.SameInstances`: the instances and the clock are as before. Every step
  but `Build.instantiate` leaves them so.
* `PortBinding.ReadIn`: what is connected to a port is read in some cycle.
* `Instance.Fed`: an instance reads all its inputs in one cycle, its own or, if
  it is one of those that may start late, the one before.
* `Builder.Step`, `Builder.Run`: one step of a construction, and any number of
  them.
* `Builder.Run.fed`: all instances of a run are fed.
-/
import Datapath.Proofs.Steps
import Mathlib.Logic.Relation

namespace Datapath

/-! ### Steps that lead to related states -/

section Leads

variable {ε σ α β : Type} {R : σ → σ → Prop}

/-- Steps that lead from every state to a related one. -/
def Leads (R : σ → σ → Prop) (f : EStateM ε σ α) : Prop := ∀ ⦃s a s'⦄, f s = .ok a s' → R s s'

namespace Leads

/-- Steps that change nothing lead to every state that is related to itself. -/
lemma of_eq [Std.Refl R] {f : EStateM ε σ α} (h : ∀ ⦃s a s'⦄, f s = .ok a s' → s = s') :
    Leads R f := by
  intro s a s' hs
  rw [h hs]
  exact refl_of R s'

lemma pure [Std.Refl R] (a : α) : Leads R (Pure.pure a : EStateM ε σ α) :=
  of_eq fun _ _ _ h => (pure_eq_ok.mp h).2

lemma get [Std.Refl R] : Leads R (MonadState.get : EStateM ε σ σ) :=
  of_eq fun _ _ _ h => (get_eq_ok.mp h).2

lemma bind [IsTrans σ R] {x : EStateM ε σ α} {f : α → EStateM ε σ β} (hx : Leads R x)
    (hf : ∀ a, Leads R (f a)) : Leads R (x >>= f) := by
  intro _ _ _ h
  obtain ⟨a, s', h₁, h₂⟩ := bind_eq_ok.mp h
  exact trans_of R (hx h₁) (hf a h₂)

lemma ite {c : Prop} [Decidable c] {x y : EStateM ε σ α} (hx : Leads R x) (hy : Leads R y) :
    Leads R (if c then x else y) := by
  split <;> assumption

lemma modify {f : σ → σ} (h : ∀ s, R s (f s)) : Leads R (modify f : EStateM ε σ PUnit) := by
  intro _ _ _ hs
  rw [← modify_eq_ok.mp hs]
  exact h _

end Leads

end Leads

/-! ### The clock and the instances -/

/-- The clock of a schedule is the same. -/
structure Schedule.SameClock (s s' : Schedule) : Prop where
  period : s'.period = s.period
  pipelined : s'.pipelined = s.pipelined

/-- The instances of a construction and its clock are the same. -/
structure Builder.SameInstances (b b' : Builder) : Prop where
  clock : b.schedule.SameClock b'.schedule
  instances : b'.instances = b.instances

namespace Schedule

instance : IsPreorder Schedule SameClock where
  refl _ := ⟨rfl, rfl⟩
  trans _ _ _ h h' := ⟨h'.period.trans h.period, h'.pipelined.trans h.pipelined⟩

lemma sameClock_declareAt (name : String) (width : ℕ) (kind : SignalKind) (point : Instant) :
    Leads SameClock (declareAt name width kind point) := by
  intro s _ s' h
  rw [declareAt] at h
  split at h <;> cases h
  exact ⟨rfl, rfl⟩

lemma sameClock_declare (name : String) (width : ℕ) : Leads SameClock (declare name width) :=
  Leads.get.bind fun _ => sameClock_declareAt _ _ _ _

lemma sameClock_declareOutput (name : String) (width : ℕ) :
    Leads SameClock (declareOutput name width) :=
  Leads.get.bind fun _ => sameClock_declareAt _ _ _ _

lemma sameClock_advance (delay : Delay) (what : String) :
    Leads SameClock (advance delay what) := by
  intro s _ s' h
  rw [advance] at h
  split_ifs at h <;> cases h <;> exact ⟨rfl, rfl⟩

lemma sameClock_read (id : SignalId) : Leads SameClock (read id) := by
  intro s _ s' h
  rw [read] at h
  split at h
  case h_1 => cases h
  case h_2 =>
    split at h <;> cases h
    exact ⟨rfl, rfl⟩

lemma sameClock_signal (id : SignalId) : Leads SameClock (signal id) :=
  .of_eq fun _ _ _ h => (signal_eq_ok.mp h).2

lemma sameClock_rewindTo (id : SignalId) : Leads SameClock (rewindTo id) :=
  (sameClock_signal id).bind fun _ => .modify fun _ => ⟨rfl, rfl⟩

lemma sameClock_syncTo (id : SignalId) : Leads SameClock (syncTo id) :=
  (sameClock_signal id).bind fun _ => .modify fun _ => by
    split_ifs <;> exact ⟨rfl, rfl⟩

lemma sameClock_nextCycle (s : Schedule) : s.SameClock s.nextCycle := by
  rw [nextCycle]
  split <;> exact ⟨rfl, rfl⟩

end Schedule

instance : IsPreorder Builder Builder.SameInstances where
  refl _ := ⟨refl_of _ _, rfl⟩
  trans _ _ _ h h' := ⟨trans_of _ h.clock h'.clock, h'.instances.trans h.instances⟩

namespace Build

open Builder (SameInstances)

variable {α : Type}

lemma sameInstances_schedule {step : Scheduling α} (h : Leads Schedule.SameClock step) :
    Leads SameInstances (schedule step) := by
  intro b r b' hb
  obtain ⟨s, hs, rfl⟩ := schedule_eq_ok.mp hb
  exact ⟨h hs, rfl⟩

lemma sameInstances_moveTo (point : Instant) : Leads SameInstances (moveTo point) :=
  .modify fun _ => ⟨⟨rfl, rfl⟩, rfl⟩

lemma sameInstances_nextCycle : Leads SameInstances nextCycle :=
  .modify fun b => ⟨b.schedule.sameClock_nextCycle, rfl⟩

lemma sameInstances_record (event : Event) : Leads SameInstances (record event) :=
  .modify fun _ => ⟨⟨rfl, rfl⟩, rfl⟩

lemma sameInstances_addPort (port : Port) : Leads SameInstances (addPort port) :=
  .modify fun _ => ⟨⟨rfl, rfl⟩, rfl⟩

lemma sameInstances_now : Leads SameInstances now :=
  .of_eq fun _ _ _ h => by cases h; rfl

lemma sameInstances_declare (name : String) (width : ℕ) :
    Leads SameInstances (declare name width) :=
  (sameInstances_schedule (Schedule.sameClock_declare _ _)).bind fun _ =>
    (sameInstances_record _).bind fun _ => .pure _

lemma sameInstances_read (id : SignalId) : Leads SameInstances (read id) :=
  (sameInstances_schedule (Schedule.sameClock_read _)).bind fun _ =>
    (sameInstances_record _).bind fun _ => .pure _

lemma sameInstances_advance (delay : Delay) (what : String) :
    Leads SameInstances (advance delay what) :=
  sameInstances_schedule (Schedule.sameClock_advance _ _)

lemma sameInstances_rewindTo (id : SignalId) :
    Leads SameInstances (schedule (Schedule.rewindTo id)) :=
  sameInstances_schedule (Schedule.sameClock_rewindTo _)

lemma sameInstances_syncTo (id : SignalId) : Leads SameInstances (syncTo id) :=
  sameInstances_schedule (Schedule.sameClock_syncTo _)

lemma sameInstances_addInput (name : String) (width : ℕ) :
    Leads SameInstances (addInput name width) :=
  (sameInstances_schedule (Schedule.sameClock_declareAt _ _ _ _)).bind fun _ =>
    (sameInstances_addPort _).bind fun _ => (sameInstances_record _).bind fun _ => .pure _

lemma sameInstances_addOutput (name : String) (width : ℕ) (source : SignalId) :
    Leads SameInstances (addOutput name width source) :=
  (sameInstances_syncTo _).bind fun _ =>
    (sameInstances_schedule (Schedule.sameClock_read _)).bind fun _ =>
      (sameInstances_record _).bind fun _ =>
        (sameInstances_schedule (Schedule.sameClock_declareOutput _ _)).bind fun _ =>
          sameInstances_now.bind fun _ => (sameInstances_addPort _).bind fun _ =>
            (sameInstances_record _).bind fun _ => .pure _

lemma sameInstances_addSubcomponent (c : Component) : Leads SameInstances (addSubcomponent c) :=
  .modify fun _ => by
    split <;> exact ⟨⟨rfl, rfl⟩, rfl⟩

lemma sameInstances_diagnose (d : Diagnostic) : Leads SameInstances (diagnose d) :=
  .modify fun _ => ⟨⟨rfl, rfl⟩, rfl⟩

lemma sameInstances_uniqueId : Leads SameInstances uniqueId := by
  intro b _ _ h
  cases h
  exact ⟨⟨rfl, rfl⟩, rfl⟩

end Build

/-! ### Reading in time -/

/-- What is connected to a port is read in cycle `n`. -/
def PortBinding.ReadIn (signals : Array Signal) (n : ℕ) : PortBinding → Prop
  | signal _ use => ∃ g, signals[use.signal]? = some g ∧ g.cycle + use.delay = n
  | constant _ _ => True

/-- An instance that starts in cycle `start` may read its inputs in cycle `n`.
With registers, some elements may start one cycle late. -/
def MayRead (late : String → Prop) (pipelined : Bool) (component : String) (start n : ℕ) : Prop :=
  start = n ∨ pipelined = true ∧ late component ∧ start = n + 1

/-- An instance reads all its inputs in one cycle, its own or, if it may start
late, the one before. -/
def Instance.Fed (i : Instance) (signals : Array Signal) (pipelined : Bool)
    (late : String → Prop) : Prop :=
  ∃ n, (∀ p ∈ i.ports, p.ReadIn signals n) ∧ MayRead late pipelined i.component i.cycle n

/-- What is connected to a port is read in the current cycle. -/
def Builder.Reads (b : Builder) (p : PortBinding) : Prop :=
  p.ReadIn b.schedule.signals.items b.schedule.cycle

/-- Every instance so far is fed. -/
def Builder.Fed (b : Builder) (late : String → Prop) : Prop :=
  ∀ i ∈ b.instances, i.Fed b.schedule.signals.items b.schedule.pipelined late

variable {late : String → Prop}

/-- A use of a signal stays where it is. -/
lemma PortBinding.ReadIn.mono {p : PortBinding} {b b' : Builder} {n : ℕ} (hle : b ≤ b')
    (h : p.ReadIn b.schedule.signals.items n) : p.ReadIn b'.schedule.signals.items n := by
  cases p with
  | constant => trivial
  | signal _ use =>
    obtain ⟨g, hg, hn⟩ := h
    obtain ⟨g', hg', hage⟩ := hle use.signal g hg
    exact ⟨g', hg', by rw [hage.cycle, hn]⟩

/-- Instances are fed as before in a later state with the same clock. -/
lemma Instance.Fed.mono {i : Instance} {b b' : Builder} (hle : b ≤ b')
    (hclock : b.schedule.SameClock b'.schedule)
    (h : i.Fed b.schedule.signals.items b.schedule.pipelined late) :
    i.Fed b'.schedule.signals.items b'.schedule.pipelined late := by
  obtain ⟨n, hports, hmay⟩ := h
  rw [hclock.pipelined]
  exact ⟨n, fun p hp => (hports p hp).mono hle, hmay⟩

namespace Build

lemma nextCycle_rising : Rising nextCycle :=
  reschedule_rising fun s => by
    rw [Schedule.nextCycle]
    split <;> exact Schedule.le_of_signals_eq rfl

lemma addInput_rising (name : String) (width : ℕ) : Rising (addInput name width) :=
  (schedule_rising fun _ _ _ h => (Schedule.declareAt_eq_ok h).1).bind fun _ =>
    (Rising.modify fun b => le_refl b.schedule).bind fun _ =>
      (record_rising _).bind fun _ => .pure _

lemma addOutput_rising (name : String) (width : ℕ) (source : SignalId) :
    Rising (addOutput name width source) :=
  (syncTo_rising _).bind fun _ => (schedule_rising (Schedule.read_rising _)).bind fun _ =>
    (record_rising _).bind fun _ =>
      (schedule_rising (Rising.get.bind fun _ =>
        fun _ _ _ h => (Schedule.declareAt_eq_ok h).1)).bind fun _ =>
        now_rising.bind fun _ => (Rising.modify fun b => le_refl b.schedule).bind fun _ =>
          (record_rising _).bind fun _ => .pure _

/-- An instance is placed in the current cycle. -/
lemma instantiate_ok {component label : String} {ports : List PortBinding} {b b' : Builder}
    {id : InstanceId} (h : instantiate component label ports b = .ok id b') :
    b'.schedule = b.schedule ∧
      b'.instances = b.instances.push { component, label, ports, cycle := b.schedule.cycle } := by
  obtain ⟨point, b₁, hnow, h⟩ := bind_eq_ok.mp h
  obtain ⟨_, b₂, hget, h⟩ := bind_eq_ok.mp h
  obtain ⟨_, b₃, hpush, h⟩ := bind_eq_ok.mp h
  obtain ⟨_, b₄, hrecord, h⟩ := bind_eq_ok.mp h
  obtain ⟨-, rfl⟩ := pure_eq_ok.mp h
  cases hnow
  obtain ⟨rfl, rfl⟩ := get_eq_ok.mp hget
  obtain rfl := modify_eq_ok.mp hpush
  obtain rfl := modify_eq_ok.mp hrecord
  exact ⟨rfl, rfl⟩

end Build

/-! ### Steps and runs -/

/-- One step of a construction. Instances are only placed where their inputs
are read in time. -/
inductive Builder.Step (late : String → Prop) : Builder → Builder → Prop
  | moveTo {b b' point} (h : Build.moveTo point b = .ok () b') : Step late b b'
  | nextCycle {b b'} (h : Build.nextCycle b = .ok () b') : Step late b b'
  | rewindTo {b b' id} (h : Build.schedule (Schedule.rewindTo id) b = .ok () b') : Step late b b'
  | syncTo {b b' id} (h : Build.syncTo id b = .ok () b') : Step late b b'
  | advance {b b' delay what inserted} (h : Build.advance delay what b = .ok inserted b') :
      Step late b b'
  | declare {b b' name width id} (h : Build.declare name width b = .ok id b') : Step late b b'
  | addInput {b b' name width id} (h : Build.addInput name width b = .ok id b') : Step late b b'
  | addOutput {b b' name width source id}
      (h : Build.addOutput name width source b = .ok id b') : Step late b b'
  | read {b b' id use} (h : Build.read id b = .ok use b') : Step late b b'
  | addSubcomponent {b b' c} (h : Build.addSubcomponent c b = .ok () b') : Step late b b'
  | diagnose {b b' d} (h : Build.diagnose d b = .ok () b') : Step late b b'
  | uniqueId {b b' n} (h : Build.uniqueId b = .ok n b') : Step late b b'
  | instantiate {b b' component label ports id n}
      (hports : ∀ p ∈ ports, p.ReadIn b.schedule.signals.items n)
      (hmay : MayRead late b.schedule.pipelined component b.schedule.cycle n)
      (h : Build.instantiate component label ports b = .ok id b') : Step late b b'

/-- Any number of steps of a construction. -/
abbrev Builder.Run (late : String → Prop) : Builder → Builder → Prop :=
  Relation.ReflTransGen (Builder.Step late)

namespace Builder

variable {b b' : Builder}

/-- A step that places no instance keeps all of them. -/
lemma Fed.of_sameInstances (hle : b ≤ b') (hsame : b.SameInstances b') (h : b.Fed late) :
    b'.Fed late := by
  intro i hi
  rw [hsame.instances] at hi
  exact (h i hi).mono hle hsame.clock

/-- Every step leads to a later state. -/
lemma Step.later (h : Step late b b') : b ≤ b' := by
  cases h with
  | moveTo h => exact Build.moveTo_rising _ h
  | nextCycle h => exact Build.nextCycle_rising h
  | rewindTo h => exact Build.schedule_rising (Schedule.rewindTo_rising _) h
  | syncTo h => exact Build.syncTo_rising _ h
  | advance h => exact Build.advance_rising _ _ h
  | declare h => exact Build.declare_rising _ _ h
  | addInput h => exact Build.addInput_rising _ _ h
  | addOutput h => exact Build.addOutput_rising _ _ _ h
  | read h => exact Build.read_rising _ h
  | addSubcomponent h => exact Build.addSubcomponent_rising _ h
  | diagnose h => exact Build.diagnose_rising _ h
  | uniqueId h => exact Build.uniqueId_rising h
  | instantiate _ _ h => exact Build.instantiate_rising _ _ _ h

/-- A step places an instance that is fed, or it keeps the instances. No step
changes the clock. -/
lemma Step.places (h : Step late b b') :
    b.SameInstances b' ∨ b'.schedule = b.schedule ∧ ∃ i : Instance,
      b'.instances = b.instances.push i ∧
        i.Fed b.schedule.signals.items b.schedule.pipelined late := by
  cases h with
  | instantiate hports hmay h =>
    obtain ⟨hschedule, hinstances⟩ := Build.instantiate_ok h
    exact .inr ⟨hschedule, _, hinstances, _, hports, hmay⟩
  | moveTo h => exact .inl (Build.sameInstances_moveTo _ h)
  | nextCycle h => exact .inl (Build.sameInstances_nextCycle h)
  | rewindTo h => exact .inl (Build.sameInstances_rewindTo _ h)
  | syncTo h => exact .inl (Build.sameInstances_syncTo _ h)
  | advance h => exact .inl (Build.sameInstances_advance _ _ h)
  | declare h => exact .inl (Build.sameInstances_declare _ _ h)
  | addInput h => exact .inl (Build.sameInstances_addInput _ _ h)
  | addOutput h => exact .inl (Build.sameInstances_addOutput _ _ _ h)
  | read h => exact .inl (Build.sameInstances_read _ h)
  | addSubcomponent h => exact .inl (Build.sameInstances_addSubcomponent _ h)
  | diagnose h => exact .inl (Build.sameInstances_diagnose _ h)
  | uniqueId h => exact .inl (Build.sameInstances_uniqueId h)

/-- One step keeps the clock. -/
lemma Step.sameClock (h : Step late b b') : b.schedule.SameClock b'.schedule := by
  rcases h.places with hsame | ⟨hschedule, -⟩
  · exact hsame.clock
  · rw [hschedule]
    exact refl_of _ _

/-- One step keeps all instances fed. -/
lemma Step.fed (h : Step late b b') (hfed : b.Fed late) : b'.Fed late := by
  rcases h.places with hsame | ⟨hschedule, i, hinstances, hi⟩
  · exact hfed.of_sameInstances h.later hsame
  · intro j hj
    rw [hschedule]
    rw [hinstances, Array.mem_push] at hj
    rcases hj with hj | rfl
    · exact hfed j hj
    · exact hi

namespace Run

lemma later (h : Run late b b') : b ≤ b' := by
  induction h with
  | refl => exact le_rfl
  | tail _ hstep ih => exact ih.trans hstep.later

lemma sameClock (h : Run late b b') : b.schedule.SameClock b'.schedule := by
  induction h with
  | refl => exact refl_of _ _
  | tail _ hstep ih => exact trans_of _ ih hstep.sameClock

/-- A run keeps all instances fed. -/
lemma fed (h : Run late b b') (hfed : b.Fed late) : b'.Fed late := by
  induction h with
  | refl => exact hfed
  | tail _ hstep ih => exact hstep.fed ih

end Run

end Builder

namespace Build

open Builder (Run)

variable {late : String → Prop} {α : Type}

lemma moveTo_run (point : Instant) : Leads (Run late) (moveTo point) :=
  fun _ _ _ h => .single (.moveTo h)

lemma nextCycle_run : Leads (Run late) nextCycle := fun _ _ _ h => .single (.nextCycle h)

lemma rewindTo_run (id : SignalId) : Leads (Run late) (schedule (Schedule.rewindTo id)) :=
  fun _ _ _ h => .single (.rewindTo h)

lemma syncTo_run (id : SignalId) : Leads (Run late) (syncTo id) :=
  fun _ _ _ h => .single (.syncTo h)

lemma advance_run (delay : Delay) (what : String) : Leads (Run late) (advance delay what) :=
  fun _ _ _ h => .single (.advance h)

lemma declare_run (name : String) (width : ℕ) : Leads (Run late) (declare name width) :=
  fun _ _ _ h => .single (.declare h)

lemma addInput_run (name : String) (width : ℕ) : Leads (Run late) (addInput name width) :=
  fun _ _ _ h => .single (.addInput h)

lemma addOutput_run (name : String) (width : ℕ) (source : SignalId) :
    Leads (Run late) (addOutput name width source) :=
  fun _ _ _ h => .single (.addOutput h)

lemma read_run (id : SignalId) : Leads (Run late) (read id) := fun _ _ _ h => .single (.read h)

lemma addSubcomponent_run (c : Component) : Leads (Run late) (addSubcomponent c) :=
  fun _ _ _ h => .single (.addSubcomponent h)

lemma diagnose_run (d : Diagnostic) : Leads (Run late) (diagnose d) :=
  fun _ _ _ h => .single (.diagnose h)

lemma uniqueId_run : Leads (Run late) uniqueId := fun _ _ _ h => .single (.uniqueId h)

/-- Asking for the current point in time is no step. -/
lemma now_run : Leads (Run late) now := .of_eq fun _ _ _ h => by cases h; rfl

/-- Looking a signal up is no step. -/
lemma eq_of_signal {id : SignalId} {g : Signal} {b b' : Builder}
    (h : schedule (Schedule.signal id) b = .ok g b') : b = b' := by
  obtain ⟨s, hs, rfl⟩ := schedule_eq_ok.mp h
  obtain ⟨-, rfl⟩ := Schedule.signal_eq_ok.mp hs
  rfl

lemma signal_run (id : SignalId) : Leads (Run late) (schedule (Schedule.signal id)) :=
  .of_eq fun _ _ _ h => eq_of_signal h

/-- A computation without state is no step. -/
lemma ofExcept_run (x : Except BuildError α) : Leads (Run late) (ofExcept x) :=
  .of_eq fun _ _ _ h => (ofExcept_eq_ok.mp h).2

end Build

end Datapath
