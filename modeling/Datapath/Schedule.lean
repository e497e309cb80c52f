/-
The schedule of one operator.

* `Schedule`: the position of construction, a cycle and the delay spent in
  it, and every signal declared so far.
* `Scheduling`: operations on a schedule that may fail.
* `Schedule.declare`: a new signal. Names are never given twice.
* `Schedule.advance`: a combinational element. If it does not fit in what is
  left of the period, a register is inserted in front of it.
* `Schedule.read`: a use of a signal, not before the cycle it is produced
  in.
* `Schedule.syncTo`, `Schedule.rewindTo`, `Schedule.moveTo`: moving forward
  to a signal, to where a signal is produced, and anywhere.
-/
import Datapath.Arena
import Datapath.Signal
import Datapath.Target.Basic
import Std.Data.HashMap

namespace Datapath

/-- The position of construction and the signals declared so far. -/
structure Schedule where
  /-- The clock period in seconds. -/
  period : Float
  /-- Registers may be inserted. -/
  pipelined : Bool
  /-- The current cycle. -/
  cycle : Nat
  /-- The delay spent in the current cycle. -/
  criticalPath : Delay
  signals : Arena Signal
  /-- The signals by name. -/
  names : Std.HashMap String SignalId
  deriving Inhabited

/-- Operations on a schedule that may fail. -/
abbrev Scheduling := EStateM BuildError Schedule

/-- A point in time: a cycle and the delay spent in it. -/
structure Instant where
  cycle : Nat
  criticalPath : Delay
  deriving Inhabited

/-- The later of two points in time, the first one if they are equal. -/
def Instant.later (a b : Instant) : Instant :=
  if a.cycle < b.cycle ∨ (b.cycle = a.cycle ∧ b.criticalPath > a.criticalPath) then b else a

namespace Schedule

/-- The schedule before anything is declared. -/
def start (period : Float) (pipelined : Bool) : Schedule :=
  { period, pipelined, cycle := 0, criticalPath := 0.0, signals := .empty, names := ∅ }

/-- The schedule before anything is declared, at the clock of a target. -/
def forTarget (t : Target) : Schedule := start t.period t.pipelined

/-- The current point in time. -/
def now (s : Schedule) : Instant := ⟨s.cycle, s.criticalPath⟩

/-- The signal with this number. -/
def signal? (s : Schedule) (id : SignalId) : Option Signal := s.signals.get? id

/-- The signal with this name. -/
def lookup (s : Schedule) (name : String) : Option SignalId := s.names[name]?

/-- A signal that must exist. -/
def signal (id : SignalId) : Scheduling Signal := fun s =>
  match s.signals.get? id with
  | some signal => .ok signal s
  | none => .error (.invariant (.unknownSignal id)) s

/-- A new signal produced at the given point in time. -/
def declareAt (name : String) (width : Nat) (kind : SignalKind) (point : Instant) :
    Scheduling SignalId := fun s =>
  if s.names.contains name then .error (.invariant (.declaredTwice name)) s
  else
    let id := s.signals.size
    let signal : Signal :=
      { name, width, kind, cycle := point.cycle, criticalPath := point.criticalPath, lifespan := 0 }
    .ok id
      { s with signals := (s.signals.alloc signal).2, names := s.names.insert name id }

/-- A new internal signal produced now. -/
def declare (name : String) (width : Nat) : Scheduling SignalId := do
  declareAt name width .wire (← get).now

/-- A new input, which arrives in the first cycle after a delay. -/
def declareInput (name : String) (width : Nat) (delay : Delay) : Scheduling SignalId :=
  declareAt name width .input ⟨0, delay⟩

/-- A new output produced now. -/
def declareOutput (name : String) (width : Nat) : Scheduling SignalId := do
  declareAt name width .output (← get).now

/-- A combinational element of this delay. The answer tells whether a
register was inserted in front of it. An element that takes longer than a
whole period fits nowhere. Without registers all delays add up. -/
def advance (delay : Delay) (what : String) : Scheduling Bool := fun s =>
  if !s.pipelined then .ok false { s with criticalPath := s.criticalPath + delay }
  else if delay.seconds > s.period then .error (.timing what delay.seconds s.period) s
  else if (s.criticalPath + delay).seconds > s.period then
    .ok true { s with cycle := s.cycle + 1, criticalPath := delay }
  else .ok false { s with criticalPath := s.criticalPath + delay }

/-- The schedule with some delay spent, whether it fits or not. -/
def addDelay (s : Schedule) (delay : Delay) : Schedule :=
  { s with criticalPath := s.criticalPath + delay }

/-- The schedule at the start of the next cycle, if there are registers. -/
def nextCycle (s : Schedule) : Schedule :=
  if s.pipelined then { s with cycle := s.cycle + 1, criticalPath := 0.0 } else s

/-- The schedule at a cycle, at its start unless it is there already. -/
def setCycle (s : Schedule) (cycle : Nat) : Schedule :=
  if cycle = s.cycle then s else { s with cycle, criticalPath := 0.0 }

/-- The schedule with another delay spent in its cycle. -/
def setCriticalPath (s : Schedule) (criticalPath : Delay) : Schedule := { s with criticalPath }

/-- The schedule at a point in time. -/
def moveTo (s : Schedule) (point : Instant) : Schedule :=
  { s with cycle := point.cycle, criticalPath := point.criticalPath }

/-- Moves to the point in time at which a signal is produced. -/
def rewindTo (id : SignalId) : Scheduling Unit := do
  let signal ← signal id
  modify fun s => s.moveTo ⟨signal.cycle, signal.criticalPath⟩

/-- Moves forward, and never back, until a signal is there. Within one cycle
the greater delay counts. -/
def syncTo (id : SignalId) : Scheduling Unit := do
  let signal ← signal id
  modify fun s =>
    if s.cycle < signal.cycle then s.moveTo ⟨signal.cycle, signal.criticalPath⟩
    else if signal.cycle = s.cycle then
      { s with criticalPath := s.criticalPath.greater signal.criticalPath }
    else s

/-- Uses a signal in the current cycle. It has to be produced by then, and
its lifespan grows to reach the use. -/
def read (id : SignalId) : Scheduling SignalRef := fun s =>
  match s.signals.get? id with
  | none => .error (.invariant (.unknownSignal id)) s
  | some signal =>
    if s.cycle < signal.cycle then
      .error (.invariant (.usedTooEarly signal.name s.cycle signal.cycle)) s
    else
      let delay := s.cycle - signal.cycle
      let extended := s.signals.update id fun g =>
        { g with lifespan := max g.lifespan delay }
      .ok { signal := id, name := signal.name, delay } { s with signals := extended }

end Schedule

end Datapath
