/-
The elements of a construction.

* `Builder.Stays`: a later state at the same point in time. What is read stays
  read.
* `Instant.Unspent`, `Instant.TakesAdder`: points in time at which elements may
  be placed; `Build.RunFrom`: steps that are a run from such points.
* `Build.advance_cycle`, `Build.advance_unspent`: an element stays in the cycle,
  or a register takes it to the next one; where nothing is spent of the cycle it
  stays.
* `Build.instantiate_now`, `Build.instantiate_behind`: an instance may be placed
  where its inputs are read, and behind its own delay if it may start late or
  nothing else is spent of the cycle.
* `Addition.ripple_eq_ok`: the steps that an adder is made of.
* `ripple_run`, `placeBlock_run`, `placeTable_run`, `placePostAdder_run`,
  `compressor_run`: every element is a run of steps.
-/
import Datapath.BitHeap.Compress
import Datapath.Product.Element
import Datapath.Proofs.Construction.Run
import Datapath.Proofs.Delays
import Mathlib.Data.List.Basic

namespace Datapath

/-! ### Staying at a point in time -/

/-- A later state of a construction at the same point in time. -/
structure Builder.Stays (b b' : Builder) : Prop where
  later : b ≤ b'
  now : b'.schedule.now = b.schedule.now

/-- Nothing is spent of the cycle. -/
def Instant.Unspent (point : Instant) : Prop := point.criticalPath = 0.0

/-- Adders may be placed: they may start late, or nothing is spent of the cycle. -/
def Instant.TakesAdder (late : String → Prop) (point : Instant) : Prop :=
  (∀ width, late (rippleName width)) ∨ point.Unspent

namespace Builder

variable {b b' b'' : Builder}

lemma Stays.trans (h : b.Stays b') (h' : b'.Stays b'') : b.Stays b'' :=
  ⟨h.later.trans h'.later, h'.now.trans h.now⟩

lemma Stays.cycle (h : b.Stays b') : b'.schedule.cycle = b.schedule.cycle :=
  congrArg Instant.cycle h.now

/-- A constant is there at any time. -/
lemma Reads.constant (formal bits : String) : b.Reads (.constant formal bits) := trivial

/-- What is read now is still read now later in the cycle. -/
lemma Reads.stays {p : PortBinding} (h : b.Reads p) (hstays : b.Stays b') : b'.Reads p := by
  rw [Reads, hstays.cycle]
  exact h.mono hstays.later

end Builder

/-- A signal that is there at the start of a cycle. -/
def Builder.Prompt (b : Builder) (id : SignalId) : Prop :=
  ∃ g, b.schedule.signal? id = some g ∧ g.criticalPath = 0.0

lemma Builder.Prompt.mono {b b' : Builder} {id : SignalId} (h : b.Prompt id) (hle : b ≤ b') :
    b'.Prompt id := by
  obtain ⟨g, hg, hpath⟩ := h
  obtain ⟨g', hg', hage⟩ := hle id g hg
  exact ⟨g', hg', hage.criticalPath.trans hpath⟩

namespace Build

variable {late : String → Prop} {b b' b₁ b₂ : Builder} {name what component label : String}
  {width : ℕ} {delay : Delay} {id : SignalId} {i : InstanceId} {inserted : Bool}
  {ports : List PortBinding}

/-- A use of a signal reads it in the current cycle. -/
lemma read_now {use : SignalRef} (h : read id b = .ok use b') :
    b.Stays b' ∧ ∀ formal, b'.Reads (.signal formal use) := by
  have hle := read_rising id h
  obtain ⟨use', b₁, hschedule, h⟩ := bind_eq_ok.mp h
  obtain ⟨_, b₂, hrecord, h⟩ := bind_eq_ok.mp h
  obtain ⟨rfl, rfl⟩ := pure_eq_ok.mp h
  obtain ⟨s, hread, rfl⟩ := schedule_eq_ok.mp hschedule
  obtain rfl := modify_eq_ok.mp hrecord
  rw [Schedule.read] at hread
  split at hread
  case h_1 => cases hread
  case h_2 g hg =>
    split at hread
    case isTrue => cases hread
    case isFalse hproduced =>
      cases hread
      refine ⟨⟨hle, rfl⟩, fun formal => ?_⟩
      obtain ⟨g', hg', hage⟩ := hle id g hg
      refine ⟨g', hg', ?_⟩
      rw [hage.cycle]
      exact Nat.add_sub_of_le (Nat.not_lt.mp hproduced)

/-- A new signal does not take time. -/
lemma declare_stays (h : declare name width b = .ok id b') : b.Stays b' := by
  refine ⟨declare_rising _ _ h, ?_⟩
  obtain ⟨id', b₁, hschedule, h⟩ := bind_eq_ok.mp h
  obtain ⟨_, b₂, hrecord, h⟩ := bind_eq_ok.mp h
  obtain ⟨rfl, rfl⟩ := pure_eq_ok.mp h
  obtain ⟨s, hdeclare, rfl⟩ := schedule_eq_ok.mp hschedule
  obtain rfl := modify_eq_ok.mp hrecord
  obtain ⟨now, s₁, hget, hdeclare⟩ := bind_eq_ok.mp hdeclare
  obtain ⟨rfl, rfl⟩ := get_eq_ok.mp hget
  rw [Schedule.declareAt] at hdeclare
  split at hdeclare <;> cases hdeclare
  rfl

/-- The definition of a component does not take time. -/
lemma addSubcomponent_stays {c : Component} (h : addSubcomponent c b = .ok () b') :
    b.Stays b' := by
  refine ⟨addSubcomponent_rising c h, ?_⟩
  obtain rfl := modify_eq_ok.mp h
  split <;> rfl

/-- Moving to a point in time leads there. -/
lemma moveTo_now {point : Instant} (h : moveTo point b = .ok () b') : b'.schedule.now = point := by
  obtain rfl := modify_eq_ok.mp h
  rfl

/-- With registers nothing is spent of the next cycle. -/
lemma nextCycle_unspent (hpipelined : b.schedule.pipelined = true)
    (h : nextCycle b = .ok () b') : b'.schedule.now.Unspent := by
  obtain rfl := modify_eq_ok.mp h
  change (b.schedule.nextCycle).criticalPath = 0.0
  rw [Schedule.nextCycle, if_pos hpipelined]

/-- An element stays in the cycle, or a register is inserted in front of it. -/
lemma advance_cycle (h : advance delay what b = .ok inserted b') :
    b'.schedule.cycle = b.schedule.cycle ∨
      b.schedule.pipelined = true ∧ b'.schedule.cycle = b.schedule.cycle + 1 := by
  obtain ⟨s, hadvance, rfl⟩ := schedule_eq_ok.mp h
  rw [Schedule.advance] at hadvance
  split_ifs at hadvance with hpipelined <;> cases hadvance
  · exact .inl rfl
  · exact .inr ⟨by simpa using hpipelined, rfl⟩
  · exact .inl rfl

/-- Where nothing is spent of the cycle no register is inserted. -/
lemma advance_unspent (hunspent : b.schedule.now.Unspent)
    (h : advance delay what b = .ok inserted b') : b'.schedule.cycle = b.schedule.cycle := by
  obtain ⟨s, hadvance, rfl⟩ := schedule_eq_ok.mp h
  have hnothing : b.schedule.criticalPath = 0.0 := hunspent
  rw [Schedule.advance, hnothing] at hadvance
  split_ifs at hadvance with hpipelined hlong hlate <;> cases hadvance
  · rfl
  · exact absurd hlate (Delay.fits_zero_add hlong)
  · rfl

/-- An input is there at the start of the first cycle, and it does not take
time. -/
lemma addInput_prompt (h : addInput name width b = .ok id b') : b.Stays b' ∧ b'.Prompt id := by
  have hle := addInput_rising _ _ h
  obtain ⟨_, b₁, hschedule, h⟩ := bind_eq_ok.mp h
  obtain ⟨_, b₂, hport, h⟩ := bind_eq_ok.mp h
  obtain ⟨_, b₃, hrecord, h⟩ := bind_eq_ok.mp h
  obtain ⟨rfl, rfl⟩ := pure_eq_ok.mp h
  obtain ⟨s, hdeclare, rfl⟩ := schedule_eq_ok.mp hschedule
  obtain rfl := modify_eq_ok.mp hport
  obtain rfl := modify_eq_ok.mp hrecord
  rw [Schedule.declareInput, Schedule.declareAt] at hdeclare
  split at hdeclare <;> cases hdeclare
  exact ⟨⟨hle, rfl⟩, _, Arena.get?_alloc_self _ _, rfl⟩

/-- Waiting for a signal that is there at the start of a cycle leaves nothing
spent. -/
lemma syncTo_unspent (hprompt : b.Prompt id) (hunspent : b.schedule.now.Unspent)
    (h : syncTo id b = .ok () b') : b'.schedule.now.Unspent := by
  obtain ⟨g, hg, hpath⟩ := hprompt
  have hnothing : b.schedule.criticalPath = 0.0 := hunspent
  obtain ⟨s, hsync, rfl⟩ := schedule_eq_ok.mp h
  obtain ⟨g', s', hsignal, hsync⟩ := bind_eq_ok.mp hsync
  obtain ⟨hg', rfl⟩ := Schedule.signal_eq_ok.mp hsignal
  obtain rfl : g = g' := Option.some.inj (hg.symm.trans hg')
  obtain rfl := modify_eq_ok.mp hsync
  change Schedule.criticalPath (ite ..) = 0.0
  split_ifs
  · exact hpath
  · change b.schedule.criticalPath.greater g.criticalPath = 0.0
    rw [hnothing, hpath, Delay.greater]
    split <;> rfl
  · exact hnothing

/-- Going back to such a signal leaves nothing spent either. -/
lemma rewindTo_unspent (hprompt : b.Prompt id)
    (h : schedule (Schedule.rewindTo id) b = .ok () b') : b'.schedule.now.Unspent := by
  obtain ⟨g, hg, hpath⟩ := hprompt
  obtain ⟨s, hrewind, rfl⟩ := schedule_eq_ok.mp h
  obtain ⟨g', s', hsignal, hrewind⟩ := bind_eq_ok.mp hrewind
  obtain ⟨hg', rfl⟩ := Schedule.signal_eq_ok.mp hsignal
  obtain rfl : g = g' := Option.some.inj (hg.symm.trans hg')
  obtain rfl := modify_eq_ok.mp hrewind
  exact hpath

/-! ### Placing instances -/

/-- An instance may be placed where its inputs are read. -/
lemma instantiate_now (hports : ports.Forall b.Reads)
    (h : instantiate component label ports b = .ok i b') : Builder.Step late b b' :=
  .instantiate (List.forall_iff_forall_mem.mp hports) (.inl rfl) h

/-- An instance may be placed behind its own delay if it may start late or
nothing else is spent of the cycle. -/
lemma instantiate_behind (hplace : late component ∨ b.schedule.now.Unspent)
    (hports : ports.Forall b.Reads)
    (hadvance : advance delay what b = .ok inserted b₁)
    (hdeclare : declare name width b₁ = .ok id b₂)
    (h : instantiate component label ports b₂ = .ok i b') : Builder.Run late b b' := by
  have hstays := declare_stays hdeclare
  have hbefore : Builder.Run late b b₂ := .tail (.single (.advance hadvance)) (.declare hdeclare)
  have hreads := List.forall_iff_forall_mem.mp hports
  refine hbefore.tail (.instantiate (fun p hp => (hreads p hp).mono hbefore.later) ?_ h)
  rw [MayRead, hstays.cycle, hbefore.sameClock.pipelined]
  rcases hplace with hlate | hunspent
  · refine (advance_cycle hadvance).imp_right ?_
    rintro ⟨hpipelined, hnext⟩
    exact ⟨hpipelined, hlate, hnext⟩
  · exact .inl (advance_unspent hunspent hadvance)

/-! ### Runs from a point in time -/

/-- Steps that are a run from every state at such a point in time. -/
def RunFrom {α : Type} (late : String → Prop) (P : Instant → Prop) (f : Build α) : Prop :=
  ∀ ⦃b a b'⦄, P b.schedule.now → f b = .ok a b' → Builder.Run late b b'

section RunFrom

variable {α β : Type} {P : Instant → Prop} {f : Build α}

lemma RunFrom.bind {g : α → Build β} (hf : RunFrom late P f)
    (hg : ∀ a, Leads (Builder.Run late) (g a)) : RunFrom late P (f >>= g) := by
  intro _ _ _ hP h
  obtain ⟨a, b', h₁, h₂⟩ := bind_eq_ok.mp h
  exact (hf hP h₁).trans (hg a h₂)

/-- Steps that stay at a point in time may come first. -/
lemma RunFrom.after {g : α → Build β} (hstays : Leads Builder.Stays f)
    (hf : Leads (Builder.Run late) f) (hg : ∀ a, RunFrom late P (g a)) :
    RunFrom late P (f >>= g) := by
  intro _ _ _ hP h
  obtain ⟨a, b', h₁, h₂⟩ := bind_eq_ok.mp h
  refine (hf h₁).trans (hg a ?_ h₂)
  rwa [(hstays h₁).now]

lemma RunFrom.read {g : SignalRef → Build β} (hg : ∀ use, RunFrom late P (g use)) :
    RunFrom late P (Build.read id >>= g) :=
  .after (fun _ _ _ h => (read_now h).1) (read_run _) hg

lemma RunFrom.declare {g : SignalId → Build β} (hg : ∀ id, RunFrom late P (g id)) :
    RunFrom late P (Build.declare name width >>= g) :=
  .after (fun _ _ _ h => declare_stays h) (declare_run _ _) hg

lemma RunFrom.ite {c : Prop} [Decidable c] {g : Build α} (hf : RunFrom late P f)
    (hg : RunFrom late P g) : RunFrom late P (if c then f else g) := by
  split <;> assumption

/-- Steps are a run wherever they begin, once the construction has moved to
such a point in time. -/
lemma RunFrom.moveTo {point : Instant} (hpoint : P point) (hf : RunFrom late P f) :
    Leads (Builder.Run late) (do moveTo point; f) := by
  intro _ _ _ h
  obtain ⟨_, b', h₁, h₂⟩ := bind_eq_ok.mp h
  refine (moveTo_run _ h₁).trans (hf ?_ h₂)
  rwa [moveTo_now h₁]

end RunFrom

end Build

/-! ### Elements -/

variable {late : String → Prop} {t : Target} {b b' : Builder} {label : String}

/-- The carry into an adder is read now. -/
lemma CarryIn.bind_reads {carry : CarryIn} {p : PortBinding} (h : carry.bind b = .ok p b') :
    Builder.Run late b b' ∧ b.Stays b' ∧ b'.Reads p := by
  cases carry with
  | constant bit =>
    obtain ⟨rfl, rfl⟩ := pure_eq_ok.mp h
    exact ⟨.refl, ⟨le_rfl, rfl⟩, .constant _ _⟩
  | signal id =>
    obtain ⟨use, b₁, hread, hpure⟩ := bind_eq_ok.mp h
    obtain ⟨rfl, rfl⟩ := pure_eq_ok.mp hpure
    obtain ⟨hstays, hreads⟩ := Build.read_now hread
    exact ⟨.single (.read hread), hstays, hreads _⟩

/-- The port of the second operand of an adder, which is a constant if there is no
such operand. -/
inductive Addition.SecondPort : Builder → PortBinding → Builder → Prop
  | none {b : Builder} {bits : String} : SecondPort b (.constant "Y" bits) b
  | read {b b' : Builder} {y : SignalId} {use : SignalRef} (h : Build.read y b = .ok use b') :
    SecondPort b (.signal "Y" use) b'

/-- The steps that an adder is made of. -/
lemma Addition.ripple_eq_ok {x out : SignalId} {y : Option SignalId} {carry : CarryIn} {width : ℕ}
    (h : ripple t label x y carry width b = .ok out b') :
    ∃ b₁ use b₂ port b₃ carryPort b₄ inserted b₅ b₆ i,
      Build.addSubcomponent (rippleComponent width) b = .ok () b₁ ∧
      Build.read x b₁ = .ok use b₂ ∧ SecondPort b₂ port b₃ ∧
      carry.bind b₃ = .ok carryPort b₄ ∧
      Build.advance (t.adderDelay width) (rippleName width) b₄ = .ok inserted b₅ ∧
      Build.declare s!"{label}_R" width b₅ = .ok out b₆ ∧
      Build.instantiate (rippleName width) label [.signal "X" use, port, carryPort] b₆ =
        .ok i b' := by
  obtain ⟨_, b₁, hcomponent, h⟩ := bind_eq_ok.mp h
  obtain ⟨use, b₂, hx, h⟩ := bind_eq_ok.mp h
  obtain ⟨port, b₃, hport, h⟩ : ∃ port b₃, SecondPort b₂ port b₃ ∧ (do
      let carryPort ← carry.bind
      let _ ← Build.advance (t.adderDelay width) (rippleName width)
      let out ← Build.declare s!"{label}_R" width
      let _ ← Build.instantiate (rippleName width) label [.signal "X" use, port, carryPort]
      return out : Build SignalId) b₃ = .ok out b' := by
    cases y with
    | none => exact ⟨_, b₂, .none, h⟩
    | some y =>
      obtain ⟨_, b₃, hy, h⟩ := bind_eq_ok.mp h
      exact ⟨_, b₃, .read hy, h⟩
  obtain ⟨carryPort, b₄, hcarry, h⟩ := bind_eq_ok.mp h
  obtain ⟨inserted, b₅, hadvance, h⟩ := bind_eq_ok.mp h
  obtain ⟨out', b₆, hdeclare, h⟩ := bind_eq_ok.mp h
  obtain ⟨i, b₇, hinstance, h⟩ := bind_eq_ok.mp h
  obtain ⟨rfl, rfl⟩ := pure_eq_ok.mp h
  exact ⟨b₁, use, b₂, port, b₃, carryPort, b₄, inserted, b₅, b₆, i, hcomponent, hx, hport, hcarry,
    hadvance, hdeclare, hinstance⟩

/-- The second operand is read now. -/
lemma Addition.SecondPort.reads {port : PortBinding} (h : SecondPort b port b') :
    Builder.Run late b b' ∧ b.Stays b' ∧ b'.Reads port := by
  cases h with
  | none => exact ⟨.refl, ⟨le_rfl, rfl⟩, .constant _ _⟩
  | read h =>
    obtain ⟨hstays, hreads⟩ := Build.read_now h
    exact ⟨.single (.read h), hstays, hreads _⟩

/-- An adder is a run of steps from where adders may be placed. -/
lemma Addition.ripple_run {x : SignalId} {y : Option SignalId} {carry : CarryIn} {width : ℕ} :
    Build.RunFrom late (Instant.TakesAdder late) (ripple t label x y carry width) := by
  intro b out b' htakes h
  obtain ⟨b₁, use, b₂, port, b₃, carryPort, b₄, inserted, b₅, b₆, i, hcomponent, hx, hport, hcarry,
    hadvance, hdeclare, hinstance⟩ := ripple_eq_ok h
  obtain ⟨hxStays, hxReads⟩ := Build.read_now hx
  obtain ⟨hyRun, hyStays, hyReads⟩ := hport.reads
  obtain ⟨hcarryRun, hcarryStays, hcarryReads⟩ := CarryIn.bind_reads hcarry
  have hcomponentStays := Build.addSubcomponent_stays hcomponent
  have hfirst : Builder.Run late b b₂ := .tail (.single (.addSubcomponent hcomponent)) (.read hx)
  have hports : List.Forall b₄.Reads [.signal "X" use, port, carryPort] :=
    ⟨(hxReads _).stays (hyStays.trans hcarryStays), hyReads.stays hcarryStays, hcarryReads⟩
  have hplace : late (rippleName width) ∨ b₄.schedule.now.Unspent := by
    rw [(hcomponentStays.trans (hxStays.trans (hyStays.trans hcarryStays))).now]
    exact htakes.imp_left fun hlate => hlate width
  exact hfirst.trans (hyRun.trans (hcarryRun.trans
    (Build.instantiate_behind hplace hports hadvance hdeclare hinstance)))

/-- A block is a run of steps from where nothing is spent of the cycle. -/
lemma placeBlock_run {x y : SignalId} :
    Build.RunFrom late Instant.Unspent (placeBlock t x y label) := by
  intro b out b' hunspent h
  obtain ⟨gx, b₁, hgx, hrest⟩ := bind_eq_ok.mp h
  obtain ⟨gy, b₂, hgy, h⟩ := bind_eq_ok.mp hrest
  obtain ⟨_, b₃, hcomponent, h⟩ := bind_eq_ok.mp h
  obtain ⟨xUse, b₄, hx, h⟩ := bind_eq_ok.mp h
  obtain ⟨yUse, b₅, hy, h⟩ := bind_eq_ok.mp h
  obtain ⟨_, b₆, hadvance, h⟩ := bind_eq_ok.mp h
  obtain ⟨_, b₇, hdeclare, h⟩ := bind_eq_ok.mp h
  obtain ⟨_, b₈, hinstance, h⟩ := bind_eq_ok.mp h
  obtain ⟨-, rfl⟩ := pure_eq_ok.mp h
  obtain ⟨hxStays, hxReads⟩ := Build.read_now hx
  obtain ⟨hyStays, hyReads⟩ := Build.read_now hy
  have hports : List.Forall b₅.Reads [.signal "X" xUse, .signal "Y" yUse] :=
    ⟨(hxReads _).stays hyStays, hyReads _⟩
  obtain rfl := Build.eq_of_signal hgx
  obtain rfl := Build.eq_of_signal hgy
  have hbefore : Builder.Run late b b₅ :=
    .tail (.tail (.single (.addSubcomponent hcomponent)) (.read hx)) (.read hy)
  have hplace : b₅.schedule.now.Unspent := by
    rwa [((Build.addSubcomponent_stays hcomponent).trans (hxStays.trans hyStays)).now]
  exact hbefore.trans (Build.instantiate_behind (.inr hplace) hports hadvance hdeclare hinstance)

/-- A table is a run of steps from where nothing is spent of the cycle. -/
lemma placeTable_run {x y : SignalId} {table : ProductTable} :
    Build.RunFrom late Instant.Unspent (placeTable t x y table label) := by
  intro b out b' hunspent h
  obtain ⟨_, b₁, hx, h⟩ := bind_eq_ok.mp h
  obtain ⟨_, b₂, hy, h⟩ := bind_eq_ok.mp h
  obtain ⟨xy, b₃, hinput, h⟩ := bind_eq_ok.mp h
  obtain ⟨component, b₄, hcomponent, h⟩ := bind_eq_ok.mp h
  obtain ⟨_, b₅, hadd, h⟩ := bind_eq_ok.mp h
  obtain ⟨use, b₆, hread, h⟩ := bind_eq_ok.mp h
  obtain ⟨_, b₇, hadvance, h⟩ := bind_eq_ok.mp h
  obtain ⟨_, b₈, hdeclare, h⟩ := bind_eq_ok.mp h
  obtain ⟨_, b₉, hinstance, h⟩ := bind_eq_ok.mp h
  obtain ⟨-, rfl⟩ := pure_eq_ok.mp h
  obtain ⟨-, rfl⟩ := ofExcept_eq_ok.mp hcomponent
  obtain ⟨hxStays, -⟩ := Build.read_now hx
  obtain ⟨hyStays, -⟩ := Build.read_now hy
  obtain ⟨hreadStays, hreads⟩ := Build.read_now hread
  have hports : List.Forall b₆.Reads [.signal "X" use] :=
    hreads _
  have hbefore : Builder.Run late b b₆ :=
    .tail (.tail (.tail (.tail (.single (.read hx)) (.read hy)) (.declare hinput))
      (.addSubcomponent hadd)) (.read hread)
  have hstays := hxStays.trans (hyStays.trans ((Build.declare_stays hinput).trans
    ((Build.addSubcomponent_stays hadd).trans hreadStays)))
  have hplace : b₆.schedule.now.Unspent := by rwa [hstays.now]
  exact hbefore.trans (Build.instantiate_behind (.inr hplace) hports hadvance hdeclare hinstance)

/-- The adder of a block is a run of steps, if it may start late. -/
lemma placePostAdder_run {sum product : SignalId} {width : ℕ}
    (hlate : late (postAdderName width)) :
    Leads (Builder.Run late) (placePostAdder t sum product width label) := by
  intro b out b' h
  obtain ⟨sumUse, b₁, hsum, h⟩ := bind_eq_ok.mp h
  obtain ⟨productUse, b₂, hproduct, h⟩ := bind_eq_ok.mp h
  obtain ⟨_, b₃, hadvance, h⟩ := bind_eq_ok.mp h
  obtain ⟨_, b₄, hdeclare, h⟩ := bind_eq_ok.mp h
  obtain ⟨_, b₅, hinstance, h⟩ := bind_eq_ok.mp h
  obtain ⟨-, rfl⟩ := pure_eq_ok.mp h
  obtain ⟨-, hsumReads⟩ := Build.read_now hsum
  obtain ⟨hproductStays, hproductReads⟩ := Build.read_now hproduct
  have hports : List.Forall b₂.Reads [.signal "PCIN" sumUse, .signal "P" productUse] :=
    ⟨(hsumReads _).stays hproductStays, hproductReads _⟩
  have hbefore : Builder.Run late b b₂ := .tail (.single (.read hsum)) (.read hproduct)
  exact hbefore.trans
    (Build.instantiate_behind (.inl hlate) hports hadvance hdeclare hinstance)

/-- Uses of signals are a run of steps. -/
lemma readSources_run (sources : List BitSource) :
    Leads (Builder.Run late) (readSources sources) := by
  induction sources with
  | nil => exact .pure ()
  | cons s sources ih =>
    cases s with
    | one => exact ih
    | bit b => exact Leads.bind (fun _ _ _ h => .single (.read h)) fun _ => ih

/-- A compressor is a run of steps. It reads its input, and its output, behind
its delay, where it is placed. -/
lemma compressor_run {w : ℕ} {inputs : List HeapBit} :
    Leads (Builder.Run late) (compressor t label w inputs) := by
  intro b out b' h
  obtain ⟨_, b₁, hmove, h⟩ := bind_eq_ok.mp h
  obtain ⟨_, b₂, hsources, h⟩ := bind_eq_ok.mp h
  obtain ⟨input, b₃, hinput, h⟩ := bind_eq_ok.mp h
  obtain ⟨_, b₄, hadvance, h⟩ := bind_eq_ok.mp h
  obtain ⟨x, b₅, hx, h⟩ := bind_eq_ok.mp h
  obtain ⟨output, b₆, houtput, h⟩ := bind_eq_ok.mp h
  obtain ⟨r, b₇, hr, h⟩ := bind_eq_ok.mp h
  obtain ⟨_, b₈, hcomponent, h⟩ := bind_eq_ok.mp h
  obtain ⟨_, b₉, hinstance, h⟩ := bind_eq_ok.mp h
  obtain ⟨point, b₁₀, hnow, h⟩ := bind_eq_ok.mp h
  obtain ⟨-, rfl⟩ := pure_eq_ok.mp h
  cases hnow
  obtain ⟨-, hxReads⟩ := Build.read_now hx
  obtain ⟨hrStays, hrReads⟩ := Build.read_now hr
  have hcomponentStays := Build.addSubcomponent_stays hcomponent
  have hports : List.Forall b₈.Reads [.signal "X0" x, .signal "R" r] :=
    ⟨(hxReads _).stays ((Build.declare_stays houtput).trans (hrStays.trans hcomponentStays)),
      (hrReads _).stays hcomponentStays⟩
  have hinputs : Builder.Run late b b₄ :=
    .tail (.tail (.trans (.single (.moveTo hmove)) (readSources_run _ hsources))
      (.declare hinput)) (.advance hadvance)
  have houtputs : Builder.Run late b₄ b₈ :=
    .tail (.tail (.tail (.single (.read hx)) (.declare houtput)) (.read hr))
      (.addSubcomponent hcomponent)
  exact hinputs.trans (houtputs.tail (Build.instantiate_now hports hinstance))

end Datapath
