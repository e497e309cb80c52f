/-
The history of a schedule.

* `Schedule.Operation`: what can be asked of a schedule; `Schedule.Transition`:
  one operation, what came of it, and the schedules around it.
* `Schedule.history`, `Schedule.after`: operations one after the other, whatever
  comes of each.
* `Schedule.effect`: a transition declares a signal, uses one, or leaves all signals
  alone; `Schedule.undone`: if it fails, it leaves everything alone.
* `Schedule.Recorded`: the signals are those that a history declares, they live
  until their last uses, and they are found under their names;
  `Schedule.Recorded.transition`: one transition more.
* `Schedule.signals_of_history`: so it is after every history.
-/
import Datapath.Proofs.Arena
import Datapath.Proofs.Construction.Stream

namespace Datapath

namespace Schedule

/-! ### Operations -/

/-- What can be asked of a schedule. -/
inductive Operation where
  | declare (name : String) (width : ℕ)
  | declareInput (name : String) (width : ℕ) (delay : Delay)
  | declareOutput (name : String) (width : ℕ)
  | advance (delay : Delay) (what : String)
  | addDelay (delay : Delay)
  | nextCycle
  | setCycle (cycle : ℕ)
  | setCriticalPath (delay : Delay)
  | rewindTo (id : SignalId)
  | syncTo (id : SignalId)
  | read (id : SignalId)
  | signal (id : SignalId)

/-- What a schedule answers. -/
inductive Answer where
  | done
  | declared (id : SignalId)
  /-- Whether a register was inserted. -/
  | advanced (inserted : Bool)
  | used (use : SignalRef)
  | found (g : Signal)

namespace Operation

/-- An operation as a step. -/
def perform : Operation → Scheduling Answer
  | declare name width => .declared <$> Schedule.declare name width
  | declareInput name width delay => .declared <$> Schedule.declareInput name width delay
  | declareOutput name width => .declared <$> Schedule.declareOutput name width
  | advance delay what => .advanced <$> Schedule.advance delay what
  | addDelay delay => fun s => .ok .done (s.addDelay delay)
  | nextCycle => fun s => .ok .done s.nextCycle
  | setCycle cycle => fun s => .ok .done (s.setCycle cycle)
  | setCriticalPath delay => fun s => .ok .done (s.setCriticalPath delay)
  | rewindTo id => (fun _ => .done) <$> Schedule.rewindTo id
  | syncTo id => (fun _ => .done) <$> Schedule.syncTo id
  | read id => .used <$> Schedule.read id
  | signal id => .found <$> Schedule.signal id

/-- The signal that an operation asks for at some point in time. -/
def signal? (now : Instant) : Operation → Option Signal
  | declare name width => some ⟨name, width, .wire, now.cycle, now.criticalPath, 0⟩
  | declareInput name width delay => some ⟨name, width, .input, 0, delay, 0⟩
  | declareOutput name width => some ⟨name, width, .output, now.cycle, now.criticalPath, 0⟩
  | _ => none

end Operation

/-- One operation, what came of it, and the schedules around it. -/
structure Transition where
  before : Schedule
  operation : Operation
  result : Except BuildError Answer
  after : Schedule

/-- What comes of an operation. -/
def transition (s : Schedule) (op : Operation) : Transition :=
  match op.perform s with
  | .ok answer s' => ⟨s, op, .ok answer, s'⟩
  | .error e s' => ⟨s, op, .error e, s'⟩

/-- What comes of operations one after the other. -/
def history (s : Schedule) : List Operation → List Transition
  | [] => []
  | op :: ops => s.transition op :: (s.transition op).after.history ops

/-- The schedule after some operations. -/
def after (s : Schedule) : List Operation → Schedule
  | [] => s
  | op :: ops => (s.transition op).after.after ops

/-- The record of a transition: a declaration or a use that succeeded. -/
def Transition.event? (t : Transition) : Option Event :=
  match t.result with
  | .ok (.declared id) => some (.declare id)
  | .ok (.used use) => some (.read use)
  | _ => none

/-- The declarations and the uses of a history. -/
def stream (past : List Transition) : Array Event := (past.filterMap Transition.event?).toArray

variable {s s' : Schedule} {op : Operation} {ops : List Operation} {past : List Transition}
  {t : Transition} {id : SignalId} {g : Signal}

/-! ### Transitions -/

lemma before_transition (s : Schedule) (op : Operation) : (s.transition op).before = s := by
  rw [transition]
  split <;> rfl

/-- An operation that fails leaves the schedule as it was. -/
lemma eq_of_error {e : BuildError} (h : op.perform s = .error e s') : s' = s := by
  have hdeclareAt : ∀ {name width kind point},
      declareAt name width kind point s = .error e s' → s' = s := by
    intro name width kind point h
    rw [declareAt] at h
    split at h <;> cases h
    rfl
  have hsignal : ∀ {id}, Schedule.signal id s = .error e s' → s' = s := by
    intro id h
    rw [Schedule.signal] at h
    split at h <;> cases h
    rfl
  cases op with
  | declare name width => exact hdeclareAt (map_eq_error.mp h)
  | declareInput name width delay => exact hdeclareAt (map_eq_error.mp h)
  | declareOutput name width => exact hdeclareAt (map_eq_error.mp h)
  | advance delay what =>
    replace h := map_eq_error.mp h
    rw [Schedule.advance] at h
    split_ifs at h
    cases h
    rfl
  | addDelay | nextCycle | setCycle | setCriticalPath => cases h
  | rewindTo id =>
    obtain h | ⟨g, s₁, -, hmodify⟩ := bind_eq_error.mp (map_eq_error.mp h)
    · exact hsignal h
    · cases hmodify
  | syncTo id =>
    obtain h | ⟨g, s₁, -, hmodify⟩ := bind_eq_error.mp (map_eq_error.mp h)
    · exact hsignal h
    · cases hmodify
  | read id =>
    replace h := map_eq_error.mp h
    rw [Schedule.read] at h
    split at h
    case h_1 =>
      cases h
      rfl
    case h_2 =>
      split at h <;> cases h
      rfl
  | signal id => exact hsignal (map_eq_error.mp h)

/-- A transition that fails leaves the schedule as it was. -/
lemma undone {e : BuildError} (h : (s.transition op).result = .error e) :
    (s.transition op).after = (s.transition op).before := by
  rw [transition] at h ⊢
  split at h
  case h_1 => cases h
  case h_2 e' s' herror => exact eq_of_error herror

/-- What a transition can do to the signals. -/
inductive Transition.Effect (t : Transition) : Prop
  /-- The signal that was asked for is new. -/
  | declared (g : Signal) (hasked : t.operation.signal? t.before.now = some g)
      (hnew : t.before.names.contains g.name = false) (hlives : g.lifespan = 0)
      (hresult : t.result = .ok (.declared t.before.signals.size))
      (hafter : t.after = { t.before with
        signals := (t.before.signals.alloc g).2
        names := t.before.names.insert g.name t.before.signals.size })
  /-- A signal lives until it is used. -/
  | used (id : SignalId) (g : Signal) (hasked : t.operation = .read id)
      (hfound : t.before.signal? id = some g) (hcycle : g.cycle ≤ t.before.cycle)
      (hresult : t.result = .ok (.used ⟨id, g.name, t.before.cycle - g.cycle⟩))
      (hafter : t.after = { t.before with
        signals := t.before.signals.update id fun g' =>
          { g' with lifespan := max g'.lifespan (t.before.cycle - g.cycle) } })
  | quiet (hresult : t.event? = none) (hsignals : t.after.signals = t.before.signals)
      (hnames : t.after.names = t.before.names)

lemma effect_of_declareAt {name : String} {width : ℕ} {kind : SignalKind} {point : Instant}
    (h : declareAt name width kind point s = .ok id s')
    (hasked : op.signal? s.now = some ⟨name, width, kind, point.cycle, point.criticalPath, 0⟩) :
    Transition.Effect ⟨s, op, .ok (.declared id), s'⟩ := by
  have hnew : s.names.contains name = false := by
    rw [declareAt] at h
    split at h
    case isTrue => cases h
    case isFalse hnew => exact Bool.eq_false_of_not_eq_true hnew
  obtain ⟨rfl, rfl⟩ := eq_of_declareAt h
  exact .declared _ hasked hnew rfl rfl rfl

/-- A transition declares a signal, uses one, or leaves all of them alone. -/
lemma effect (s : Schedule) (op : Operation) : (s.transition op).Effect := by
  rw [transition]
  split
  case h_2 e s' h =>
    obtain rfl := eq_of_error h
    exact .quiet rfl rfl rfl
  case h_1 answer s' h =>
    cases op with
    | declare name width =>
      obtain ⟨id, hdeclare, rfl⟩ := map_eq_ok.mp h
      obtain ⟨_, _, hget, hdeclare⟩ := bind_eq_ok.mp hdeclare
      obtain ⟨rfl, rfl⟩ := get_eq_ok.mp hget
      exact effect_of_declareAt hdeclare rfl
    | declareInput name width delay =>
      obtain ⟨id, hdeclare, rfl⟩ := map_eq_ok.mp h
      exact effect_of_declareAt hdeclare rfl
    | declareOutput name width =>
      obtain ⟨id, hdeclare, rfl⟩ := map_eq_ok.mp h
      obtain ⟨_, _, hget, hdeclare⟩ := bind_eq_ok.mp hdeclare
      obtain ⟨rfl, rfl⟩ := get_eq_ok.mp hget
      exact effect_of_declareAt hdeclare rfl
    | advance delay what =>
      obtain ⟨inserted, hadvance, rfl⟩ := map_eq_ok.mp h
      rw [Schedule.advance] at hadvance
      split_ifs at hadvance <;> cases hadvance <;> exact .quiet rfl rfl rfl
    | addDelay | setCriticalPath =>
      cases h
      exact .quiet rfl rfl rfl
    | nextCycle =>
      cases h
      refine .quiet rfl ?_ ?_ <;> dsimp only [Schedule.nextCycle] <;> split <;> rfl
    | setCycle cycle =>
      cases h
      refine .quiet rfl ?_ ?_ <;> dsimp only [Schedule.setCycle] <;> split <;> rfl
    | rewindTo id =>
      obtain ⟨_, hrewind, rfl⟩ := map_eq_ok.mp h
      obtain ⟨g, s₁, hsignal, hmove⟩ := bind_eq_ok.mp hrewind
      obtain ⟨-, rfl⟩ := signal_eq_ok.mp hsignal
      obtain rfl := modify_eq_ok.mp hmove
      exact .quiet rfl rfl rfl
    | syncTo id =>
      obtain ⟨_, hsync, rfl⟩ := map_eq_ok.mp h
      obtain ⟨g, s₁, hsignal, hmove⟩ := bind_eq_ok.mp hsync
      obtain ⟨-, rfl⟩ := signal_eq_ok.mp hsignal
      obtain rfl := modify_eq_ok.mp hmove
      refine .quiet rfl ?_ ?_ <;> dsimp only <;> split_ifs <;> rfl
    | read id =>
      obtain ⟨use, hread, rfl⟩ := map_eq_ok.mp h
      obtain ⟨g, hg, hcycle, rfl, rfl⟩ := eq_of_read hread
      exact .used id g rfl hg hcycle rfl rfl
    | signal id =>
      obtain ⟨g, hsignal, rfl⟩ := map_eq_ok.mp h
      obtain ⟨-, rfl⟩ := signal_eq_ok.mp hsignal
      exact .quiet rfl rfl rfl

/-- After a transition the schedule is a later one. -/
lemma Transition.Effect.le (h : t.Effect) : t.before ≤ t.after := by
  cases h with
  | declared g _ _ _ _ hafter =>
    rw [hafter]
    exact le_alloc _ _ _
  | used id g _ _ _ _ hafter =>
    rw [hafter]
    exact le_update _ _ _
  | quiet _ hsignals _ => exact le_of_signals_eq hsignals

/-- A declaration that succeeds leaves its signal under the number that it gives. -/
lemma Transition.Effect.of_declared (h : t.Effect) (hdeclared : t.result = .ok (.declared id)) :
    ∃ g, t.operation.signal? t.before.now = some g ∧ t.after.signal? id = some g := by
  cases h with
  | declared g hasked _ _ hresult hafter =>
    cases hresult.symm.trans hdeclared
    refine ⟨g, hasked, ?_⟩
    rw [hafter]
    exact Arena.get?_alloc_self _ _
  | used _ _ _ _ _ hresult _ => cases hresult.symm.trans hdeclared
  | quiet hresult _ _ =>
    rw [Transition.event?, hdeclared] at hresult
    cases hresult

/-- A use that succeeds leads from the cycle of its signal to the current one. -/
lemma Transition.Effect.of_used {use : SignalRef} (h : t.Effect) (hread : t.operation = .read id)
    (hused : t.result = .ok (.used use)) :
    use.signal = id ∧ ∃ g, t.before.signal? id = some g ∧ use.name = g.name ∧
      g.cycle + use.delay = t.before.cycle := by
  cases h with
  | declared _ _ _ _ hresult _ => cases hresult.symm.trans hused
  | used id' g hasked hfound hcycle hresult hafter =>
    cases hasked.symm.trans hread
    cases hresult.symm.trans hused
    exact ⟨rfl, g, hfound, rfl, Nat.add_sub_cancel' hcycle⟩
  | quiet hresult _ _ =>
    rw [Transition.event?, hused] at hresult
    cases hresult

/-! ### Histories -/

/-- The history so far explains the signals: they are those that it declares, each
lives until its last use, and is found under its name. -/
structure Recorded (past : List Transition) (s : Schedule) : Prop where
  replays : Replays (stream past) s.signals.items 0
  indexed : s.signals.Indexed Signal.name s.names

lemma stream_concat (past : List Transition) (t : Transition) :
    stream (past ++ [t]) = t.event?.elim (stream past) (stream past).push := by
  rw [stream, List.filterMap_append]
  cases h : t.event? <;> simp [h, stream]

namespace Recorded

lemma start (period : Float) (pipelined : Bool) : Recorded [] (start period pipelined) where
  replays :=
    { declares := rfl
      places := rfl
      reads := fun i use h => by simp [stream] at h
      lifespans := fun id g h => by simp [Schedule.start, Arena.empty] at h }
  indexed := Arena.Indexed.empty

/-- One transition more. -/
lemma transition (h : Recorded past t.before) (ht : t.Effect) :
    Recorded (past ++ [t]) t.after := by
  cases ht with
  | declared g _ hnew hlives hresult hafter =>
    rw [hafter]
    refine ⟨?_, h.indexed.alloc hnew⟩
    rw [stream_concat, Transition.event?, hresult]
    exact h.replays.declare hlives
  | used id g _ hfound _ hresult hafter =>
    rw [hafter]
    refine ⟨?_, h.indexed.update id fun _ => rfl⟩
    rw [stream_concat, Transition.event?, hresult]
    exact h.replays.read hfound _
  | quiet hresult hsignals hnames =>
    constructor
    · rw [stream_concat, hresult, hsignals]
      exact h.replays
    · rw [hsignals, hnames]
      exact h.indexed

/-- Any number of transitions more. -/
lemma after (h : Recorded past s) : Recorded (past ++ s.history ops) (s.after ops) := by
  induction ops generalizing past s with
  | nil => rwa [history, List.append_nil]
  | cons op ops ih =>
    rw [history, List.append_cons]
    exact ih (Recorded.transition (by rwa [before_transition]) (s.effect op))

end Recorded

/-- The schedule gets later in every history. -/
lemma le_after (s : Schedule) (ops : List Operation) : s ≤ s.after ops := by
  induction ops generalizing s with
  | nil => exact le_refl s
  | cons op ops ih =>
    have hle := (s.effect op).le
    rw [before_transition] at hle
    exact hle.trans (ih _)

/-- A transition of a history does to the signals what it can do, it does nothing if it
fails, and the end of the history is later. -/
lemma mem_history (h : t ∈ s.history ops) :
    t.Effect ∧ (∀ e, t.result = .error e → t.after = t.before) ∧ t.after ≤ s.after ops := by
  induction ops generalizing s with
  | nil => cases h
  | cons op ops ih =>
    rcases List.mem_cons.mp h with rfl | hrest
    · exact ⟨s.effect op, fun _ => undone, le_after _ ops⟩
    · exact ih hrest

/-- **After every history the schedule is consistent.** No two signals have the same
name, and a signal is found under its own name alone. The numbers of the signals are
those of their declarations, in order. A signal keeps the name, the width, the kind,
the cycle and the delay that it was declared with, and it lives until the last use
that succeeded. A use leads from the cycle of the signal to the cycle of the use. An
operation that fails leaves the schedule as it was, and whatever follows leaves a
signal as it is, apart from a longer life. -/
theorem signals_of_history (period : Float) (pipelined : Bool) (ops more : List Operation) :
    let past := (start period pipelined).history ops
    let s := (start period pipelined).after ops
    (∀ id id' g g', s.signal? id = some g → s.signal? id' = some g' → g.name = g'.name →
      id = id') ∧
    (∀ name id, s.lookup name = some id ↔ ∃ g, s.signal? id = some g ∧ g.name = name) ∧
    (stream past).toList.filterMap Event.declared? = List.range s.signals.size ∧
    (∀ t ∈ past, ∀ id, t.result = .ok (.declared id) →
      ∃ g g', t.operation.signal? t.before.now = some g ∧ s.signal? id = some g' ∧ g.Ages g') ∧
    (∀ id g, s.signal? id = some g → g.lifespan = longestUse (stream past) id) ∧
    (∀ t ∈ past, ∀ id use, t.operation = .read id → t.result = .ok (.used use) →
      use.signal = id ∧
        ∃ g, s.signal? id = some g ∧ use.name = g.name ∧ g.cycle + use.delay = t.before.cycle) ∧
    (∀ t ∈ past, ∀ e, t.result = .error e → t.after = t.before) ∧
    (∀ id g, s.signal? id = some g → ∃ g', (s.after more).signal? id = some g' ∧ g.Ages g') := by
  intro past s
  have hrecorded : Recorded past s := (Recorded.start period pipelined).after
  refine ⟨fun _ _ _ _ => hrecorded.indexed.eq_of_name, hrecorded.indexed,
    hrecorded.replays.declares, ?_, hrecorded.replays.lifespans, ?_, ?_, le_after s more⟩
  · intro t ht id hdeclared
    obtain ⟨heffect, -, hle⟩ := mem_history ht
    obtain ⟨g, hasked, hg⟩ := heffect.of_declared hdeclared
    obtain ⟨g', hg', hage⟩ := hle id g hg
    exact ⟨g, g', hasked, hg', hage⟩
  · intro t ht id use hread hused
    obtain ⟨heffect, -, hle⟩ := mem_history ht
    obtain ⟨huse, g, hg, hname, hcycle⟩ := heffect.of_used hread hused
    obtain ⟨g', hg', hage⟩ := (heffect.le.trans hle) id g hg
    exact ⟨huse, g', hg', hname.trans hage.name.symm, hage.cycle.symm ▸ hcycle⟩
  · intro t ht
    exact (mem_history ht).2.1

end Schedule

end Datapath
