/-
Components that hold what they promise.

* `Component.Causal`: the construction stream can be replayed, and every use is
  over by the latency.
* `Target.Fits`, `Component.Timed`: no delay is greater than the clock period.
* `Target.Admits`, `Component.Combinational`: without registers there are no
  points in time but those of the first cycle, and nothing is delayed.
* `formals`: the ports that instances of a component bind, which its name tells;
  `Component.Offers`, `Instance.Binds`: a component has them, and an instance
  binds no others.
* `Component.IsPart`: the adders, blocks, tables and compressors of a target.
* `Component.IsElement`: what instances are made of. Components without a body
  are elements (`primitive_isElement`).
-/
import Datapath.BitHeap.Compress
import Datapath.Product.Element
import Datapath.Proofs.Construction.Stream
import Datapath.Proofs.Delays

namespace Datapath

/-! ### Time -/

/-- A delay is not greater than the clock period of a target with registers. -/
def Target.Fits (t : Target) (d : Delay) : Prop :=
  t.pipelined = true → 0.0 < t.period → ¬ d.seconds > t.period

/-- A target has such a cycle. Without registers it has no cycle but the first
one. -/
def Target.HasCycle (t : Target) (n : ℕ) : Prop := t.pipelined = false → n = 0

/-- A target has such a point in time: its delay fits, and the target has its
cycle. -/
structure Target.Admits (t : Target) (p : Instant) : Prop where
  fits : t.Fits p.criticalPath
  cycle : t.HasCycle p.cycle

/-- The point in time at which a signal is produced. -/
def Signal.made (g : Signal) : Instant := ⟨g.cycle, g.criticalPath⟩

namespace Target

variable {t : Target} {α : Type}

lemma fits_zero : t.Fits 0.0 := by
  intro _ hpos hlate
  rw [Delay.seconds_zero] at hlate
  exact float_lt_irrefl _ (float_lt_trans hpos hlate)

/-- The greater one of two delays is one of them. -/
lemma fits_greater {c d : Delay} (hc : t.Fits c) (hd : t.Fits d) : t.Fits (c.greater d) := by
  rw [Delay.greater]
  split <;> assumption

/-- So is the greatest one of many. -/
lemma fits_foldl (f : α → Delay) {items : List α} (h : ∀ a ∈ items, t.Fits (f a)) {d : Delay}
    (hd : t.Fits d) : t.Fits (items.foldl (fun d a => d.greater (f a)) d) := by
  induction items generalizing d with
  | nil => exact hd
  | cons a items ih =>
    obtain ⟨ha, hitems⟩ := List.forall_mem_cons.mp h
    exact ih hitems (fits_greater hd ha)

/-- Every target has the first cycle, and all of them if there are registers. -/
lemma hasCycle_zero : t.HasCycle 0 := fun _ => rfl

lemma hasCycle_of_pipelined {n : ℕ} (h : t.pipelined = true) : t.HasCycle n := by
  intro hnone
  rw [h] at hnone
  cases hnone

lemma admits_start : t.Admits ⟨0, 0.0⟩ := ⟨fits_zero, hasCycle_zero⟩

/-- The later one of two points in time is one of them. -/
lemma admits_later {a b : Instant} (ha : t.Admits a) (hb : t.Admits b) : t.Admits (a.later b) := by
  rw [Instant.later]
  split <;> assumption

end Target

/-- The later one of two points in time is in the later cycle. -/
lemma Instant.cycle_later (a b : Instant) : (a.later b).cycle = max a.cycle b.cycle := by
  rw [later]
  split <;> omega

lemma Instant.le_later_left (a b : Instant) : a.cycle ≤ (a.later b).cycle :=
  (le_max_left _ _).trans (a.cycle_later b).ge

lemma Instant.le_later_right (a b : Instant) : b.cycle ≤ (a.later b).cycle :=
  (le_max_right _ _).trans (a.cycle_later b).ge

/-- No number is greater than the greatest one of all. -/
lemma le_foldl_max {α : Type} (f : α → ℕ) (items : List α) (n : ℕ) :
    n ≤ items.foldl (fun k a => max k (f a)) n ∧
      ∀ a ∈ items, f a ≤ items.foldl (fun k a => max k (f a)) n := by
  induction items generalizing n with
  | nil => exact ⟨le_rfl, fun _ ha => absurd ha List.not_mem_nil⟩
  | cons a items ih =>
    obtain ⟨hn, hitems⟩ := ih (max n (f a))
    exact ⟨(le_max_left _ _).trans hn,
      List.forall_mem_cons.mpr ⟨(le_max_right _ _).trans hn, hitems⟩⟩

/-- What bounds all of some numbers bounds the greatest one. -/
lemma foldl_max_le {α : Type} {f : α → ℕ} {items : List α} {n k : ℕ} (hn : n ≤ k)
    (h : ∀ a ∈ items, f a ≤ k) : items.foldl (fun k a => max k (f a)) n ≤ k := by
  induction items generalizing n with
  | nil => exact hn
  | cons a items ih =>
    obtain ⟨ha, hitems⟩ := List.forall_mem_cons.mp h
    exact ih (max_le hn ha) hitems

/-! ### Components -/

/-- Of uses that are no longer than `n`, the longest one is not. -/
lemma longestUse_le {events : Array Event} {id : SignalId} {n : ℕ}
    (h : ∀ use, .read use ∈ events → use.delay ≤ n) : longestUse events id ≤ n := by
  refine foldl_max_le (Nat.zero_le n) fun delay hdelay => ?_
  obtain ⟨e, he, hof⟩ := List.mem_filterMap.mp hdelay
  cases e with
  | declare | instantiate => cases hof
  | read use =>
    rw [Event.delayOf?] at hof
    split_ifs at hof
    cases hof
    exact h use (Array.mem_toList_iff.mp he)

/-- All uses in a stream are over by cycle `n`. -/
def UsedBy (events : Array Event) (signals : Array Signal) (n : ℕ) : Prop :=
  ∀ use, .read use ∈ events → ∃ g, signals[use.signal]? = some g ∧ g.cycle + use.delay ≤ n

/-- The ports that instances of a component bind. The fourth letter of its name
tells adders, blocks, the adders of blocks, tables and compressors from each
other and from everything that has no instances. -/
def formals (name : String) : List String :=
  match name.toList[3]? with
  | some 'A' => ["X", "Y", "Cin"]
  | some 'B' => ["X", "Y"]
  | some 'P' => ["PCIN", "P"]
  | some 'l' => ["X"]
  | some 'p' => ["X0", "R"]
  | _ => []

@[simp] lemma PortBinding.formal_signal (formal : String) (use : SignalRef) :
    (signal formal use).formal = formal := rfl

@[simp] lemma PortBinding.formal_constant (formal bits : String) :
    (constant formal bits).formal = formal := rfl

/-- An instance binds ports that instances of its component bind. -/
def Instance.Binds (i : Instance) : Prop := ∀ p ∈ i.ports, p.formal ∈ formals i.component

namespace Component

/-- The construction stream can be replayed, and all uses in it are over by the
latency. -/
structure Causal (c : Component) : Prop where
  replays : Replays c.events c.signals c.instances.size
  usedBy : UsedBy c.events c.signals c.latency

/-- No delay is greater than the clock period. -/
structure Timed (t : Target) (c : Component) : Prop where
  signals : ∀ g ∈ c.signals, t.Fits g.criticalPath
  output : t.Fits c.outputCriticalPath

/-- The component has no registers: all of it is in the first cycle, and nothing
is delayed. -/
structure Combinational (c : Component) : Prop where
  signals : ∀ g ∈ c.signals, g.cycle = 0 ∧ g.lifespan = 0
  instances : ∀ i ∈ c.instances, i.cycle = 0
  reads : ∀ use, .read use ∈ c.events → use.delay = 0
  latency : c.latency = 0
  registerBits : c.registerBits = 0

/-- The adders, blocks, tables and compressors of a target. -/
inductive IsPart (t : Target) : Component → Prop
  | adder (width : ℕ) : IsPart t (rippleComponent width)
  | block (wx wy : ℕ) : IsPart t (blockComponent wx wy)
  | postAdder (width : ℕ) : IsPart t (postAdderComponent width)
  | table {table : ProductTable} {c : Component} (h : table.component t = .ok c) : IsPart t c
  | compressor (inputs : ℕ) :
    IsPart t (.primitive (compressorName inputs) [("X0", inputs)] [("R", 2)])

/-- Signals that do not outlive their production need no registers. -/
lemma registerBits_eq_zero {c : Component} (h : ∀ g ∈ c.signals, g.lifespan = 0) :
    c.registerBits = 0 := by
  rw [registerBits, ← Array.foldl_toList]
  replace h : ∀ g ∈ c.signals.toList, g.lifespan = 0 := fun g hg => h g (Array.mem_toList_iff.mp hg)
  generalize c.signals.toList = signals at h
  induction signals with
  | nil => rfl
  | cons g signals ih =>
    obtain ⟨hg, hsignals⟩ := List.forall_mem_cons.mp h
    rw [List.foldl_cons, hg, Nat.zero_mul]
    exact ih hsignals

/-- The component has the ports that its instances bind. -/
def Offers (c : Component) : Prop := ∀ formal ∈ formals c.name, (c.port? formal).isSome

/-- What instances are made of. It has no instances itself. -/
structure IsElement (t : Target) (c : Component) : Prop where
  part : c.IsPart t
  causal : c.Causal
  timed : c.Timed t
  combinational : t.pipelined = false → c.Combinational
  offers : c.Offers
  leaf : c.instances = #[]

variable {t : Target} {name formal : String} {inputs outputs : List (String × ℕ)}

/-- A component without a body has the ports that it was given. -/
lemma port?_primitive :
    ((primitive name inputs outputs).port? formal).isSome ↔
      formal ∈ inputs.map (·.1) ∨ formal ∈ outputs.map (·.1) := by
  simp [port?, primitive, primitive.port, List.find?_isSome]

/-- A component without a body is an element if it has the ports that its name
tells. -/
lemma primitive_isElement (hpart : (primitive name inputs outputs).IsPart t)
    (h : ∀ formal ∈ formals name, formal ∈ inputs.map (·.1) ∨ formal ∈ outputs.map (·.1)) :
    (primitive name inputs outputs).IsElement t where
  part := hpart
  causal :=
    { replays :=
        { declares := rfl
          places := rfl
          reads := fun _ _ hread => by cases hread
          lifespans := fun _ _ hg => by cases hg }
      usedBy := fun _ hread => absurd hread (Array.not_mem_empty _) }
  timed := ⟨fun _ hg => absurd hg (Array.not_mem_empty _), Target.fits_zero⟩
  combinational _ :=
    { signals := fun _ hg => absurd hg (Array.not_mem_empty _)
      instances := fun _ hi => absurd hi (Array.not_mem_empty _)
      reads := fun _ hread => absurd hread (Array.not_mem_empty _)
      latency := rfl
      registerBits := rfl }
  offers formal hformal := port?_primitive.mpr (h formal hformal)
  leaf := rfl

end Component

end Datapath
