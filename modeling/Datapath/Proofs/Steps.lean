/-
Steps that may fail, and the signals that they leave.

* `bind_eq_ok` and its companions: a sequence of steps that succeeds comes
  apart into steps that succeed.
* `bind_congr_ok`: what follows a step matters only where that succeeds.
* `Signal.Ages`, the order on `Schedule` and `Builder`: a later state still has
  every signal of an earlier one. Of a signal only the lifespan grows.
* `Rising`: steps after which the state is a later one. Every step of a
  construction is (`declare_rising`, `read_rising`, `advance_rising`, …).
* `declare_ok`: a new signal was not there before.
-/
import Datapath.Adder.CarrySelect
import Mathlib.Order.Basic
import Mathlib.Tactic.Linarith

namespace Datapath

variable {ε σ α β : Type}

/-! ### Sequences of steps -/

/-- Steps in sequence succeed one after the other. -/
lemma bind_eq_ok {x : EStateM ε σ α} {f : α → EStateM ε σ β} {s s'' : σ} {r : β} :
    (x >>= f) s = .ok r s'' ↔ ∃ a s', x s = .ok a s' ∧ f a s' = .ok r s'' := by
  change EStateM.bind x f s = _ ↔ _
  unfold EStateM.bind
  cases x s <;> simp

/-- Steps that go on alike wherever the first one succeeds are alike. -/
lemma bind_congr_ok {x : EStateM ε σ α} {f g : α → EStateM ε σ β} {s : σ}
    (h : ∀ a s', x s = .ok a s' → f a s' = g a s') : (x >>= f) s = (x >>= g) s := by
  change EStateM.bind x f s = EStateM.bind x g s
  unfold EStateM.bind
  cases hx : x s with
  | ok a s' => exact h a s' hx
  | error => rfl

lemma pure_eq_ok {a r : α} {s s' : σ} :
    (pure a : EStateM ε σ α) s = .ok r s' ↔ a = r ∧ s = s' := by
  change EStateM.Result.ok a s = _ ↔ _
  simp

lemma throw_eq_ok {e : ε} {r : α} {s s' : σ} :
    (throw e : EStateM ε σ α) s = .ok r s' ↔ False := by
  change EStateM.Result.error e s = _ ↔ _
  simp

lemma get_eq_ok {r s s' : σ} : (get : EStateM ε σ σ) s = .ok r s' ↔ s = r ∧ s = s' := by
  change EStateM.Result.ok s s = _ ↔ _
  simp

lemma modify_eq_ok {f : σ → σ} {r : PUnit} {s s' : σ} :
    (modify f : EStateM ε σ PUnit) s = .ok r s' ↔ f s = s' := by
  change EStateM.Result.ok PUnit.unit (f s) = _ ↔ _
  simp

/-- Steps in sequence fail where the first one of them to fail does. -/
lemma bind_eq_error {x : EStateM ε σ α} {f : α → EStateM ε σ β} {s s'' : σ} {e : ε} :
    (x >>= f) s = .error e s'' ↔
      x s = .error e s'' ∨ ∃ a s', x s = .ok a s' ∧ f a s' = .error e s'' := by
  change EStateM.bind x f s = _ ↔ _
  unfold EStateM.bind
  cases x s <;> simp

/-- A function of what a step returns. -/
lemma map_eq_ok {f : α → β} {x : EStateM ε σ α} {s s' : σ} {r : β} :
    (f <$> x) s = .ok r s' ↔ ∃ a, x s = .ok a s' ∧ f a = r := by
  change EStateM.map f x s = _ ↔ _
  unfold EStateM.map
  cases x s <;> simp [and_comm]

lemma map_eq_error {f : α → β} {x : EStateM ε σ α} {s s' : σ} {e : ε} :
    (f <$> x) s = .error e s' ↔ x s = .error e s' := by
  change EStateM.map f x s = _ ↔ _
  unfold EStateM.map
  cases x s <;> simp

/-- Computations without state succeed one after the other, too. -/
lemma except_bind_eq_ok {x : Except ε α} {f : α → Except ε β} {r : β} :
    (x >>= f) = .ok r ↔ ∃ a, x = .ok a ∧ f a = .ok r := by
  change Except.bind x f = _ ↔ _
  cases x <;> simp [Except.bind]

/-- A computation without state succeeds as a step if it succeeds. -/
lemma ofExcept_eq_ok {x : Except BuildError α} {r : α} {b b' : Builder} :
    Build.ofExcept x b = .ok r b' ↔ x = .ok r ∧ b = b' := by
  cases x with
  | ok a => rw [Build.ofExcept, pure_eq_ok, Except.ok.injEq]
  | error e => simp [Build.ofExcept, throw_eq_ok]

/-- An operator that could be constructed came of steps that succeeded. -/
lemma construct_eq_ok {α : Type} {b : Builder} {steps : Build α} {a : α} {built : BuiltOperator}
    (h : b.construct steps = .ok (a, built)) :
    ∃ b', steps b = .ok a b' ∧ built = b'.finish := by
  rw [Builder.construct] at h
  split at h
  case h_1 a' b' hsteps =>
    cases h
    exact ⟨b', hsteps, rfl⟩
  case h_2 => cases h

/-- Steps after which the state is a later one. -/
def Rising [LE σ] (f : EStateM ε σ α) : Prop := ∀ ⦃s a s'⦄, f s = .ok a s' → s ≤ s'

namespace Rising

variable [Preorder σ]

lemma pure (a : α) : Rising (Pure.pure a : EStateM ε σ α) := by
  intro s _ s' h
  obtain ⟨-, rfl⟩ := pure_eq_ok.mp h
  exact le_rfl

lemma bind {x : EStateM ε σ α} {f : α → EStateM ε σ β} (hx : Rising x) (hf : ∀ a, Rising (f a)) :
    Rising (x >>= f) := by
  intro _ _ _ h
  obtain ⟨a, s', h₁, h₂⟩ := bind_eq_ok.mp h
  exact (hx h₁).trans (hf a h₂)

lemma ite {c : Prop} [Decidable c] {x y : EStateM ε σ α} (hx : Rising x) (hy : Rising y) :
    Rising (if c then x else y) := by
  split <;> assumption

lemma get : Rising (MonadState.get : EStateM ε σ σ) := by
  intro _ _ _ h
  obtain ⟨-, rfl⟩ := get_eq_ok.mp h
  exact le_rfl

/-- A change that keeps a state later than it was. -/
lemma modify {f : σ → σ} (h : ∀ s, s ≤ f s) : Rising (modify f : EStateM ε σ PUnit) := by
  intro _ _ _ hs
  rw [← modify_eq_ok.mp hs]
  exact h _

end Rising

/-! ### Signals of a later state -/

/-- A signal as it is later in a construction: only its lifespan grows. -/
structure Signal.Ages (g g' : Signal) : Prop where
  name : g'.name = g.name
  width : g'.width = g.width
  kind : g'.kind = g.kind
  cycle : g'.cycle = g.cycle
  criticalPath : g'.criticalPath = g.criticalPath
  lifespan : g.lifespan ≤ g'.lifespan

lemma Signal.Ages.refl (g : Signal) : g.Ages g := ⟨rfl, rfl, rfl, rfl, rfl, le_rfl⟩

lemma Signal.Ages.trans {g₁ g₂ g₃ : Signal} (h : g₁.Ages g₂) (h' : g₂.Ages g₃) : g₁.Ages g₃ :=
  ⟨h'.name.trans h.name, h'.width.trans h.width, h'.kind.trans h.kind, h'.cycle.trans h.cycle,
    h'.criticalPath.trans h.criticalPath, h.lifespan.trans h'.lifespan⟩

/-- A later schedule still has every signal of an earlier one. -/
instance : Preorder Schedule where
  le s s' := ∀ id g, s.signal? id = some g → ∃ g', s'.signal? id = some g' ∧ g.Ages g'
  le_refl _ _ g h := ⟨g, h, .refl g⟩
  le_trans _ _ _ h h' id g hg := by
    obtain ⟨g₁, hg₁, hage₁⟩ := h id g hg
    obtain ⟨g₂, hg₂, hage₂⟩ := h' id g₁ hg₁
    exact ⟨g₂, hg₂, hage₁.trans hage₂⟩

/-- A later state of a construction has a later schedule. -/
instance : Preorder Builder := Preorder.lift (·.schedule)

/-- The signal has been declared. -/
def Schedule.Declares (s : Schedule) (id : SignalId) : Prop := id < s.signals.size

/-- The signal has been declared. -/
def Builder.Declares (b : Builder) (id : SignalId) : Prop := b.schedule.Declares id

namespace Schedule

variable {s s' : Schedule} {id : SignalId} {g : Signal}

lemma declares_iff : s.Declares id ↔ ∃ g, s.signal? id = some g := by
  rw [Declares, signal?, Arena.get?, Arena.size, ← Option.isSome_iff_exists]
  simp

/-- What has been declared stays declared. -/
lemma Declares.mono (h : s.Declares id) (hle : s ≤ s') : s'.Declares id := by
  obtain ⟨g, hg⟩ := declares_iff.mp h
  obtain ⟨g', hg', -⟩ := hle id g hg
  exact declares_iff.mpr ⟨g', hg'⟩

/-- The width of a signal. -/
def widthOf (s : Schedule) (id : SignalId) : ℕ := (s.signal? id).elim 0 (·.width)

/-- A schedule whose signals are the same is as late. -/
lemma le_of_signals_eq (h : s'.signals = s.signals) : s ≤ s' := fun id g hg =>
  ⟨g, by rw [signal?, h]; exact hg, .refl g⟩

/-- A schedule may grow by a signal. -/
lemma le_alloc (s : Schedule) (g : Signal) (names : Std.HashMap String SignalId) :
    s ≤ { s with signals := (s.signals.alloc g).2, names } := by
  intro id g' hg'
  refine ⟨g', ?_, .refl g'⟩
  rw [signal?, Arena.get?_alloc_of_lt _ _ (declares_iff.mpr ⟨g', hg'⟩)]
  exact hg'

/-- A schedule may grow by the lifespan of a signal. -/
lemma le_update (s : Schedule) (id : SignalId) (n : ℕ) :
    s ≤ { s with
      signals := s.signals.update id fun g => { g with lifespan := max g.lifespan n } } := by
  intro id' g hg
  rw [signal?, Arena.get?_update]
  split
  · rw [signal?] at hg
    rw [hg]
    exact ⟨_, rfl, rfl, rfl, rfl, rfl, rfl, le_max_left _ _⟩
  · exact ⟨g, hg, .refl g⟩

/-! ### Steps of a schedule -/

/-- Looking a signal up changes nothing. -/
lemma signal_eq_ok : signal id s = .ok g s' ↔ s.signal? id = some g ∧ s = s' := by
  rw [signal, signal?]
  cases s.signals.get? id <;> simp

lemma declareAt_eq_ok {name : String} {width : ℕ} {kind : SignalKind} {point : Instant}
    (h : declareAt name width kind point s = .ok id s') :
    s ≤ s' ∧ ¬ s.Declares id ∧ ∃ g, s'.signal? id = some g ∧ g.width = width := by
  rw [declareAt] at h
  split at h
  case isTrue => cases h
  case isFalse =>
    cases h
    refine ⟨le_alloc s _ _, lt_irrefl _, _, Arena.get?_alloc_self _ _, rfl⟩

lemma read_rising (id : SignalId) : Rising (read id) := by
  intro s r s' h
  rw [read] at h
  split at h
  case h_1 => cases h
  case h_2 =>
    split at h
    case isTrue => cases h
    case isFalse =>
      cases h
      exact le_update s id _

lemma advance_rising (delay : Delay) (what : String) : Rising (advance delay what) := by
  intro s r s' h
  rw [advance] at h
  split_ifs at h <;> cases h <;> exact le_of_signals_eq rfl

lemma moveTo_le (s : Schedule) (point : Instant) : s ≤ s.moveTo point := le_of_signals_eq rfl

lemma signal_rising (id : SignalId) : Rising (signal id) := by
  intro _ _ _ h
  obtain ⟨-, rfl⟩ := signal_eq_ok.mp h
  exact le_rfl

lemma rewindTo_rising (id : SignalId) : Rising (rewindTo id) :=
  (signal_rising id).bind fun _ => .modify fun _ => le_of_signals_eq rfl

lemma syncTo_rising (id : SignalId) : Rising (syncTo id) :=
  (signal_rising id).bind fun _ => .modify fun _ => by
    split_ifs <;> exact le_of_signals_eq rfl

end Schedule

/-! ### Steps of a construction -/

lemma Builder.Declares.mono {b b' : Builder} {id : SignalId} (h : b.Declares id) (hle : b ≤ b') :
    b'.Declares id :=
  Schedule.Declares.mono h hle

namespace Build

/-- A step of the schedule leaves the rest of the operator alone. -/
lemma schedule_eq_ok {step : Scheduling α} {b b' : Builder} {r : α} :
    schedule step b = .ok r b' ↔
      ∃ s, step b.schedule = .ok r s ∧ { b with schedule := s } = b' := by
  rw [schedule]
  cases step b.schedule <;> simp

lemma schedule_rising {step : Scheduling α} (h : Rising step) : Rising (schedule step) := by
  intro b r b' hb
  obtain ⟨s, hs, rfl⟩ := schedule_eq_ok.mp hb
  exact h hs

lemma reschedule_rising {f : Schedule → Schedule} (h : ∀ s, s ≤ f s) : Rising (reschedule f) :=
  .modify fun b => h b.schedule

lemma moveTo_rising (point : Instant) : Rising (moveTo point) :=
  reschedule_rising fun s => s.moveTo_le point

lemma now_rising : Rising now := by
  intro _ _ _ h
  cases h
  exact le_rfl

lemma record_rising (event : Event) : Rising (record event) := .modify fun b => le_refl b.schedule

lemma read_rising (id : SignalId) : Rising (read id) :=
  (schedule_rising (Schedule.read_rising id)).bind fun _ =>
    (record_rising _).bind fun _ => .pure _

lemma advance_rising (delay : Delay) (what : String) : Rising (advance delay what) :=
  schedule_rising (Schedule.advance_rising delay what)

lemma syncTo_rising (id : SignalId) : Rising (syncTo id) :=
  schedule_rising (Schedule.syncTo_rising id)

lemma instantiate_rising (component label : String) (ports : List PortBinding) :
    Rising (instantiate component label ports) :=
  now_rising.bind fun _ => Rising.get.bind fun _ =>
    (Rising.modify fun b => le_refl b.schedule).bind fun _ =>
      (record_rising _).bind fun _ => .pure _

lemma addSubcomponent_rising (c : Component) : Rising (addSubcomponent c) := .modify fun b => by
  split <;> exact le_refl b.schedule

lemma diagnose_rising (d : Diagnostic) : Rising (diagnose d) := .modify fun b => le_refl b.schedule

lemma uniqueId_rising : Rising uniqueId := by
  intro b _ _ h
  cases h
  exact le_refl b.schedule

lemma ofExcept_rising (x : Except BuildError α) : Rising (ofExcept x) := by
  intro _ _ _ h
  obtain ⟨-, rfl⟩ := ofExcept_eq_ok.mp h
  exact le_rfl

/-- A new signal was not there before, is there from now on, and has the width
that was asked for. -/
lemma declare_ok {name : String} {width : ℕ} {b b' : Builder} {id : SignalId}
    (h : declare name width b = .ok id b') :
    b ≤ b' ∧ ¬ b.Declares id ∧ ∃ g, b'.schedule.signal? id = some g ∧ g.width = width := by
  obtain ⟨id', b₁, hschedule, hrest⟩ := bind_eq_ok.mp h
  obtain ⟨_, b₂, hrecord, hpure⟩ := bind_eq_ok.mp hrest
  obtain ⟨rfl, rfl⟩ := pure_eq_ok.mp hpure
  obtain ⟨s, hdeclare, rfl⟩ := schedule_eq_ok.mp hschedule
  obtain ⟨now, s₁, hget, hdeclare⟩ := bind_eq_ok.mp hdeclare
  obtain ⟨rfl, rfl⟩ := get_eq_ok.mp hget
  rw [record, modify_eq_ok] at hrecord
  subst hrecord
  exact Schedule.declareAt_eq_ok hdeclare

lemma declare_rising (name : String) (width : ℕ) : Rising (declare name width) :=
  fun _ _ _ h => (declare_ok h).1

/-- A new signal is there from now on. -/
lemma declares_of_declare {name : String} {width : ℕ} {b b' : Builder} {id : SignalId}
    (h : declare name width b = .ok id b') : b'.Declares id := by
  obtain ⟨-, -, g, hg, -⟩ := declare_ok h
  exact Schedule.declares_iff.mpr ⟨g, hg⟩

end Build

end Datapath
