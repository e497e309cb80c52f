/-
The construction stream.

* `longestUse`: the longest delay among the uses of a signal in a stream.
* `Replays`: a stream that can be replayed. It declares the signals and places
  the instances in order, it uses a signal behind its declaration and under its
  name, and no signal outlives its longest use.
* `Replays.declare`, `Replays.read`, `Replays.place`: one record more.
* `Builder.Run.replays`: every step of a construction keeps its stream so, and
  therefore every run does.
-/
import Datapath.Proofs.Construction.Run

namespace Datapath

/-! ### Streams -/

namespace Event

/-- The signal that is declared. -/
def declared? : Event → Option SignalId
  | declare id => some id
  | _ => none

/-- The instance that is placed. -/
def placed? : Event → Option InstanceId
  | instantiate id => some id
  | _ => none

/-- The delay of a use of the signal `id`. -/
def delayOf? (id : SignalId) : Event → Option ℕ
  | read use => if use.signal = id then some use.delay else none
  | _ => none

end Event

/-- The longest delay among the uses of a signal, or zero if there are none. -/
def longestUse (events : Array Event) (id : SignalId) : ℕ :=
  (events.toList.filterMap (Event.delayOf? id)).foldl max 0

/-- A stream of records about these signals and this number of instances that
can be replayed. -/
structure Replays (events : Array Event) (signals : Array Signal) (instances : ℕ) : Prop where
  declares : events.toList.filterMap Event.declared? = List.range signals.size
  places : events.toList.filterMap Event.placed? = List.range instances
  reads : ∀ (i : ℕ) (use : SignalRef), events[i]? = some (.read use) →
    (∃ j < i, events[j]? = some (.declare use.signal)) ∧
      ∃ g, signals[use.signal]? = some g ∧ g.name = use.name
  lifespans : ∀ (id : SignalId) (g : Signal), signals[id]? = some g →
    g.lifespan = longestUse events id

variable {events : Array Event} {signals : Array Signal} {instances : ℕ} {id : SignalId}
  {e : Event} {g : Signal}

/-- A record lengthens the longest use only if it is a use. -/
lemma longestUse_push :
    longestUse (events.push e) id =
      (e.delayOf? id).elim (longestUse events id) (max (longestUse events id)) := by
  rw [longestUse, Array.toList_push, List.filterMap_append, List.foldl_append]
  cases h : e.delayOf? id <;> simp [h, longestUse]

namespace Replays

/-- What has been recorded stays in its place behind what came before it. -/
lemma reads_push (h : Replays events signals instances) {signals' : Array Signal} {i : ℕ}
    {use : SignalRef} (hi : i ≠ events.size) (hread : (events.push e)[i]? = some (.read use))
    (hsame : ∀ g, signals[use.signal]? = some g →
      ∃ g', signals'[use.signal]? = some g' ∧ g'.name = g.name) :
    (∃ j < i, (events.push e)[j]? = some (.declare use.signal)) ∧
      ∃ g, signals'[use.signal]? = some g ∧ g.name = use.name := by
  rw [Array.getElem?_push, if_neg hi] at hread
  obtain ⟨⟨j, hj, hdeclare⟩, g, hg, hname⟩ := h.reads i use hread
  obtain ⟨g', hg', hname'⟩ := hsame g hg
  have hlt : j < events.size := (Array.getElem?_eq_some_iff.mp hdeclare).1
  refine ⟨⟨j, hj, ?_⟩, g', hg', hname'.trans hname⟩
  rw [Array.getElem?_push, if_neg hlt.ne]
  exact hdeclare

/-- A signal that has not been declared has not been used. -/
lemma longestUse_eq_zero (h : Replays events signals instances) (hid : signals.size ≤ id) :
    longestUse events id = 0 := by
  have hnone : events.toList.filterMap (Event.delayOf? id) = [] := by
    rw [List.filterMap_eq_nil_iff]
    intro e he
    cases e with
    | declare | instantiate => rfl
    | read use =>
      obtain ⟨i, hi, hread⟩ := Array.mem_iff_getElem.mp (Array.mem_toList_iff.mp he)
      obtain ⟨-, g, hg, -⟩ := h.reads i use (Array.getElem?_eq_some_iff.mpr ⟨hi, hread⟩)
      have hlt : use.signal < signals.size := (Array.getElem?_eq_some_iff.mp hg).1
      rw [Event.delayOf?, if_neg (hlt.trans_le hid).ne]
  rw [longestUse, hnone]
  rfl

/-- A signal is declared. -/
lemma declare (h : Replays events signals instances) (hg : g.lifespan = 0) :
    Replays (events.push (.declare signals.size)) (signals.push g) instances where
  declares := by
    rw [Array.toList_push, List.filterMap_append, h.declares, Array.size_push, List.range_succ]
    rfl
  places := by
    rw [Array.toList_push, List.filterMap_append, h.places]
    exact List.append_nil _
  reads i use hread := by
    by_cases hi : i = events.size
    · rw [hi, Array.getElem?_push_size] at hread
      cases hread
    · refine h.reads_push hi hread fun g' hg' => ⟨g', ?_, rfl⟩
      rw [Array.getElem?_push, if_neg (Array.getElem?_eq_some_iff.mp hg').1.ne]
      exact hg'
  lifespans id g' hg' := by
    rw [longestUse_push]
    change g'.lifespan = longestUse events id
    rw [Array.getElem?_push] at hg'
    split at hg'
    case isTrue hid =>
      cases hg'
      rw [h.longestUse_eq_zero hid.ge, hg]
    case isFalse => exact h.lifespans id g' hg'

/-- A signal is used, and it lives until then. -/
lemma read (h : Replays events signals instances) (hg : signals[id]? = some g) (delay : ℕ) :
    Replays (events.push (.read ⟨id, g.name, delay⟩))
      (signals.modify id fun g => { g with lifespan := max g.lifespan delay }) instances where
  declares := by
    rw [Array.toList_push, List.filterMap_append, h.declares, Array.size_modify]
    exact List.append_nil _
  places := by
    rw [Array.toList_push, List.filterMap_append, h.places]
    exact List.append_nil _
  reads i use hread := by
    by_cases hi : i = events.size
    · rw [hi, Array.getElem?_push_size] at hread
      cases hread
      -- the signal is one of those that have been declared
      have hmem : id ∈ events.toList.filterMap Event.declared? := by
        rw [h.declares, List.mem_range]
        exact (Array.getElem?_eq_some_iff.mp hg).1
      obtain ⟨e, he, hdeclared⟩ := List.mem_filterMap.mp hmem
      obtain rfl : e = .declare id := by
        cases e <;> simp_all [Event.declared?]
      obtain ⟨j, hj, hdeclare⟩ := Array.mem_iff_getElem.mp (Array.mem_toList_iff.mp he)
      refine ⟨⟨j, hi ▸ hj, ?_⟩, { g with lifespan := max g.lifespan delay }, ?_, rfl⟩
      · rw [Array.getElem?_push, if_neg hj.ne, Array.getElem?_eq_some_iff]
        exact ⟨hj, hdeclare⟩
      · rw [Array.getElem?_modify, if_pos rfl, hg]
        rfl
    · refine h.reads_push hi hread fun g' hg' => ?_
      rw [Array.getElem?_modify, hg']
      split
      · exact ⟨_, rfl, rfl⟩
      · exact ⟨g', rfl, rfl⟩
  lifespans id' g' hg' := by
    rw [longestUse_push, Event.delayOf?]
    rw [Array.getElem?_modify] at hg'
    split at hg'
    case isTrue hid =>
      subst hid
      rw [hg] at hg'
      cases hg'
      rw [if_pos rfl, Option.elim_some, ← h.lifespans id g hg]
    case isFalse hid =>
      rw [if_neg hid]
      exact h.lifespans id' g' hg'

/-- An instance is placed. -/
lemma place (h : Replays events signals instances) :
    Replays (events.push (.instantiate instances)) signals (instances + 1) where
  declares := by
    rw [Array.toList_push, List.filterMap_append, h.declares]
    exact List.append_nil _
  places := by
    rw [Array.toList_push, List.filterMap_append, h.places, List.range_succ]
    rfl
  reads i use hread := by
    by_cases hi : i = events.size
    · rw [hi, Array.getElem?_push_size] at hread
      cases hread
    · exact h.reads_push hi hread fun g' hg' => ⟨g', hg', rfl⟩
  lifespans id' g' hg' := by
    rw [longestUse_push]
    exact h.lifespans id' g' hg'

end Replays

/-! ### What steps record -/

/-- The stream of a construction so far can be replayed. -/
def Builder.Replays (b : Builder) : Prop :=
  Datapath.Replays b.events b.schedule.signals.items b.instances.size

/-- The stream is as before, and so are the signals and the number of
instances. -/
structure Builder.Silent (b b' : Builder) : Prop where
  events : b'.events = b.events
  signals : b'.schedule.signals = b.schedule.signals
  instances : b'.instances = b.instances

lemma Builder.Silent.replays {b b' : Builder} (h : b.Silent b') (hb : b.Replays) : b'.Replays := by
  rw [Replays, h.events, h.signals, h.instances]
  exact hb

namespace Schedule

variable {s s' : Schedule}

/-- A declaration makes a signal of some kind at a point in time. -/
lemma eq_of_declareAt {name : String} {width : ℕ} {kind : SignalKind} {point : Instant}
    (h : declareAt name width kind point s = .ok id s') :
    id = s.signals.size ∧
      s' = { s with
        signals := (s.signals.alloc ⟨name, width, kind, point.cycle, point.criticalPath, 0⟩).2
        names := s.names.insert name s.signals.size } := by
  rw [declareAt] at h
  split at h <;> cases h
  exact ⟨rfl, rfl⟩

/-- A use refers to a signal that has been produced, which lives until then. -/
lemma eq_of_read {use : SignalRef} (h : read id s = .ok use s') :
    ∃ g, s.signal? id = some g ∧ g.cycle ≤ s.cycle ∧ use = ⟨id, g.name, s.cycle - g.cycle⟩ ∧
      s' = { s with signals := s.signals.update id fun g' =>
        { g' with lifespan := max g'.lifespan (s.cycle - g.cycle) } } := by
  rw [read] at h
  split at h
  case h_1 => cases h
  case h_2 g hg =>
    split at h
    case isTrue => cases h
    case isFalse hlate =>
      cases h
      exact ⟨g, hg, Nat.not_lt.mp hlate, rfl, rfl⟩

end Schedule

namespace Build

variable {b b' : Builder} {name label component : String} {width : ℕ} {use : SignalRef}

/-- A declaration that is recorded keeps the stream. -/
lemma replays_declareAt (hb : b.Replays) {kind : SignalKind} {point : Instant} {s : Schedule}
    (h : Schedule.declareAt name width kind point b.schedule = .ok id s) :
    Replays (b.events.push (.declare id)) s.signals.items b.instances.size := by
  obtain ⟨rfl, rfl⟩ := Schedule.eq_of_declareAt h
  exact hb.declare rfl

/-- A use that is recorded keeps the stream. -/
lemma replays_read (hb : b.Replays) {s : Schedule}
    (h : Schedule.read id b.schedule = .ok use s) :
    Replays (b.events.push (.read use)) s.signals.items b.instances.size := by
  obtain ⟨g, hg, -, rfl, rfl⟩ := Schedule.eq_of_read h
  exact Replays.read hb hg _

lemma declare_replays (h : declare name width b = .ok id b') (hb : b.Replays) : b'.Replays := by
  obtain ⟨id', b₁, hschedule, h⟩ := bind_eq_ok.mp h
  obtain ⟨_, b₂, hrecord, h⟩ := bind_eq_ok.mp h
  obtain ⟨rfl, rfl⟩ := pure_eq_ok.mp h
  obtain ⟨s, hdeclare, rfl⟩ := schedule_eq_ok.mp hschedule
  obtain rfl := modify_eq_ok.mp hrecord
  obtain ⟨now, s₁, hget, hdeclare⟩ := bind_eq_ok.mp hdeclare
  obtain ⟨rfl, rfl⟩ := get_eq_ok.mp hget
  exact replays_declareAt hb hdeclare

lemma read_replays (h : read id b = .ok use b') (hb : b.Replays) : b'.Replays := by
  obtain ⟨use', b₁, hschedule, h⟩ := bind_eq_ok.mp h
  obtain ⟨_, b₂, hrecord, h⟩ := bind_eq_ok.mp h
  obtain ⟨rfl, rfl⟩ := pure_eq_ok.mp h
  obtain ⟨s, hread, rfl⟩ := schedule_eq_ok.mp hschedule
  obtain rfl := modify_eq_ok.mp hrecord
  exact replays_read hb hread

lemma addInput_replays (h : addInput name width b = .ok id b') (hb : b.Replays) : b'.Replays := by
  obtain ⟨id', b₁, hschedule, h⟩ := bind_eq_ok.mp h
  obtain ⟨_, b₂, hport, h⟩ := bind_eq_ok.mp h
  obtain ⟨_, b₃, hrecord, h⟩ := bind_eq_ok.mp h
  obtain ⟨rfl, rfl⟩ := pure_eq_ok.mp h
  obtain ⟨s, hdeclare, rfl⟩ := schedule_eq_ok.mp hschedule
  obtain rfl := modify_eq_ok.mp hport
  obtain rfl := modify_eq_ok.mp hrecord
  exact replays_declareAt hb hdeclare

lemma syncTo_silent (h : syncTo id b = .ok () b') : b.Silent b' := by
  obtain ⟨s, hsync, rfl⟩ := schedule_eq_ok.mp h
  obtain ⟨g, s', hsignal, hsync⟩ := bind_eq_ok.mp hsync
  obtain ⟨-, rfl⟩ := Schedule.signal_eq_ok.mp hsignal
  obtain rfl := modify_eq_ok.mp hsync
  refine ⟨rfl, ?_, rfl⟩
  dsimp only
  split_ifs <;> rfl

lemma rewindTo_silent (h : schedule (Schedule.rewindTo id) b = .ok () b') : b.Silent b' := by
  obtain ⟨s, hrewind, rfl⟩ := schedule_eq_ok.mp h
  obtain ⟨g, s', hsignal, hrewind⟩ := bind_eq_ok.mp hrewind
  obtain ⟨-, rfl⟩ := Schedule.signal_eq_ok.mp hsignal
  obtain rfl := modify_eq_ok.mp hrewind
  exact ⟨rfl, rfl, rfl⟩

lemma advance_silent {delay : Delay} {what : String} {inserted : Bool}
    (h : advance delay what b = .ok inserted b') : b.Silent b' := by
  obtain ⟨s, hadvance, rfl⟩ := schedule_eq_ok.mp h
  rw [Schedule.advance] at hadvance
  split_ifs at hadvance <;> cases hadvance <;> exact ⟨rfl, rfl, rfl⟩

lemma nextCycle_silent (h : nextCycle b = .ok () b') : b.Silent b' := by
  obtain rfl := modify_eq_ok.mp h
  refine ⟨rfl, ?_, rfl⟩
  change b.schedule.nextCycle.signals = _
  rw [Schedule.nextCycle]
  split <;> rfl

lemma addSubcomponent_silent {c : Component} (h : addSubcomponent c b = .ok () b') :
    b.Silent b' := by
  obtain rfl := modify_eq_ok.mp h
  split <;> exact ⟨rfl, rfl, rfl⟩

/-- An output is a use of its source and a declaration. -/
lemma addOutput_replays {source : SignalId} (h : addOutput name width source b = .ok id b')
    (hb : b.Replays) : b'.Replays := by
  obtain ⟨_, b₁, hsync, h⟩ := bind_eq_ok.mp h
  obtain ⟨use, b₂, hschedule, h⟩ := bind_eq_ok.mp h
  obtain ⟨_, b₃, huse, h⟩ := bind_eq_ok.mp h
  obtain ⟨id', b₄, hschedule', h⟩ := bind_eq_ok.mp h
  obtain ⟨point, b₅, hnow, h⟩ := bind_eq_ok.mp h
  obtain ⟨_, b₆, hport, h⟩ := bind_eq_ok.mp h
  obtain ⟨_, b₇, hrecord, h⟩ := bind_eq_ok.mp h
  obtain ⟨rfl, rfl⟩ := pure_eq_ok.mp h
  obtain ⟨s, hread, rfl⟩ := schedule_eq_ok.mp hschedule
  obtain rfl := modify_eq_ok.mp huse
  have hused : Builder.Replays { b₁ with schedule := s, events := b₁.events.push (.read use) } :=
    replays_read ((syncTo_silent hsync).replays hb) hread
  obtain ⟨s', hdeclare, rfl⟩ := schedule_eq_ok.mp hschedule'
  cases hnow
  obtain rfl := modify_eq_ok.mp hport
  obtain rfl := modify_eq_ok.mp hrecord
  obtain ⟨now, s₁, hget, hdeclare⟩ := bind_eq_ok.mp hdeclare
  obtain ⟨rfl, rfl⟩ := get_eq_ok.mp hget
  exact replays_declareAt hused hdeclare

lemma instantiate_replays {ports : List PortBinding} {i : InstanceId}
    (h : instantiate component label ports b = .ok i b') (hb : b.Replays) : b'.Replays := by
  obtain ⟨point, b₁, hnow, h⟩ := bind_eq_ok.mp h
  obtain ⟨_, b₂, hget, h⟩ := bind_eq_ok.mp h
  obtain ⟨_, b₃, hpush, h⟩ := bind_eq_ok.mp h
  obtain ⟨_, b₄, hrecord, h⟩ := bind_eq_ok.mp h
  obtain ⟨-, rfl⟩ := pure_eq_ok.mp h
  cases hnow
  obtain ⟨rfl, rfl⟩ := get_eq_ok.mp hget
  obtain rfl := modify_eq_ok.mp hpush
  obtain rfl := modify_eq_ok.mp hrecord
  have hplace := Replays.place hb
  rw [← Array.size_push] at hplace
  exact hplace

end Build

/-! ### Runs -/

namespace Builder

variable {b b' : Builder} {late : String → Prop}

/-- One step keeps the stream. -/
lemma Step.replays (h : Step late b b') (hb : b.Replays) : b'.Replays := by
  cases h with
  | moveTo h =>
    obtain rfl := modify_eq_ok.mp h
    exact hb
  | nextCycle h => exact (Build.nextCycle_silent h).replays hb
  | rewindTo h => exact (Build.rewindTo_silent h).replays hb
  | syncTo h => exact (Build.syncTo_silent h).replays hb
  | advance h => exact (Build.advance_silent h).replays hb
  | declare h => exact Build.declare_replays h hb
  | addInput h => exact Build.addInput_replays h hb
  | addOutput h => exact Build.addOutput_replays h hb
  | read h => exact Build.read_replays h hb
  | addSubcomponent h => exact (Build.addSubcomponent_silent h).replays hb
  | diagnose h =>
    obtain rfl := modify_eq_ok.mp h
    exact hb
  | uniqueId h =>
    cases h
    exact hb
  | instantiate _ _ h => exact Build.instantiate_replays h hb

/-- A run keeps the stream. -/
lemma Run.replays (h : Run late b b') (hb : b.Replays) : b'.Replays := by
  induction h with
  | refl => exact hb
  | tail _ hstep ih => exact hstep.replays ih

/-- The stream of a construction that has not begun is empty. -/
lemma replays_forTarget (name : String) (t : Target) : (forTarget name t).Replays where
  declares := rfl
  places := rfl
  reads _ _ h := by cases h
  lifespans _ _ h := by cases h

end Builder

/-! ### The name and the ports -/

/-- The name stays, and so do the ports. -/
structure Builder.Extends (b b' : Builder) : Prop where
  name : b'.name = b.name
  ports : ∀ q ∈ b.ports, q ∈ b'.ports

instance : IsPreorder Builder Builder.Extends where
  refl _ := ⟨rfl, fun _ hq => hq⟩
  trans _ _ _ h h' := ⟨h'.name.trans h.name, fun q hq => h'.ports q (h.ports q hq)⟩

namespace Build

open Builder (Extends)

variable {α : Type}

lemma extends_schedule (step : Scheduling α) : Leads Extends (schedule step) := by
  intro b r b' h
  obtain ⟨s, -, rfl⟩ := schedule_eq_ok.mp h
  exact ⟨rfl, fun _ hq => hq⟩

lemma extends_record (event : Event) : Leads Extends (record event) :=
  .modify fun _ => ⟨rfl, fun _ hq => hq⟩

lemma extends_addPort (port : Port) : Leads Extends (addPort port) :=
  .modify fun _ => ⟨rfl, fun _ hq => Array.mem_push_of_mem _ hq⟩

lemma extends_now : Leads Extends now := .of_eq fun _ _ _ h => by cases h; rfl

/-- An input is a port. -/
lemma mem_ports_of_addInput {b b' : Builder} {name : String} {width : ℕ}
    (h : addInput name width b = .ok id b') : ⟨name, width, .input, 0⟩ ∈ b'.ports := by
  obtain ⟨id', b₁, hschedule, h⟩ := bind_eq_ok.mp h
  obtain ⟨_, b₂, hport, h⟩ := bind_eq_ok.mp h
  obtain ⟨_, b₃, hrecord, h⟩ := bind_eq_ok.mp h
  obtain ⟨-, rfl⟩ := pure_eq_ok.mp h
  obtain rfl := modify_eq_ok.mp hport
  obtain rfl := modify_eq_ok.mp hrecord
  exact Array.mem_push_self

end Build

/-- One step keeps the name and the ports. -/
lemma Builder.Step.extends {b b' : Builder} {late : String → Prop} (h : Step late b b') :
    b.Extends b' := by
  open Build in
  cases h with
  | moveTo h | nextCycle h | diagnose h =>
    obtain rfl := modify_eq_ok.mp h
    exact ⟨rfl, fun _ hq => hq⟩
  | rewindTo h | syncTo h | advance h => exact extends_schedule _ h
  | declare h | read h =>
    exact (extends_schedule _).bind (fun _ => (extends_record _).bind fun _ => .pure _) h
  | addInput h =>
    exact (extends_schedule _).bind (fun _ => (extends_addPort _).bind fun _ =>
      (extends_record _).bind fun _ => .pure _) h
  | addOutput h =>
    exact (extends_schedule _).bind (fun _ => (extends_schedule _).bind fun _ =>
      (extends_record _).bind fun _ => (extends_schedule _).bind fun _ => extends_now.bind fun _ =>
        (extends_addPort _).bind fun _ => (extends_record _).bind fun _ => .pure _) h
  | addSubcomponent h =>
    obtain rfl := modify_eq_ok.mp h
    split <;> exact ⟨rfl, fun _ hq => hq⟩
  | uniqueId h =>
    cases h
    exact ⟨rfl, fun _ hq => hq⟩
  | instantiate _ _ h =>
    exact extends_now.bind (fun _ => Leads.get.bind fun _ =>
      (Leads.modify fun _ => ⟨rfl, fun _ hq => hq⟩).bind fun _ =>
        (extends_record _).bind fun _ => .pure _) h

/-- So does a run. -/
lemma Builder.Run.extends {b b' : Builder} {late : String → Prop} (h : Run late b b') :
    b.Extends b' := by
  induction h with
  | refl => exact refl_of _ _
  | tail _ hstep ih => exact trans_of _ ih hstep.extends

end Datapath
