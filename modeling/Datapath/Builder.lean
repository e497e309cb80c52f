/-
The construction of one operator.

* `Builder`: an operator under construction.
* `Build`: construction steps, which may fail. What a failed construction
  did before it failed is kept in the builder, and no operator comes of it.
* `Build.addInput`, `Build.addOutput`, `Build.declare`, `Build.read`,
  `Build.instantiate`: the steps. Each leaves its record in the construction
  stream.
* `Builder.finish`, `Builder.construct`: the finished operator. Its latency
  is that of its latest output.
-/
import Datapath.Component
import Datapath.Schedule

namespace Datapath

/-- An operator under construction. -/
structure Builder where
  name : String
  schedule : Schedule
  ports : Array Port
  events : Array Event
  instances : Array Instance
  subcomponents : Array Component
  diagnostics : Array Diagnostic
  /-- The next number that marks a name as used once. -/
  nextUid : Nat
  deriving Inhabited

/-- Construction steps. -/
abbrev Build := EStateM BuildError Builder

namespace Builder

/-- The construction of `name` before its first step. -/
def start (name : String) (schedule : Schedule) : Builder :=
  { name, schedule, ports := #[], events := #[], instances := #[], subcomponents := #[],
    diagnostics := #[], nextUid := 0 }

/-- The construction of `name` at the clock of a target. -/
def forTarget (name : String) (t : Target) : Builder := start name (.forTarget t)

/-- The finished operator, made of `body`. Diagnostics that name no operator
are about this one. -/
def finishWith (b : Builder) (body : Body) : BuiltOperator :=
  let outputs := b.schedule.signals.items.filter (·.kind == .output)
  let latency := outputs.foldl (fun latest s => max latest s.cycle) 0
  { component :=
      { name := b.name
        ports := b.ports
        signals := b.schedule.signals.items
        events := b.events
        instances := b.instances
        body
        latency
        outputCriticalPath :=
          (outputs.filter (·.cycle == latency)).foldl (fun d s => d.greater s.criticalPath) 0.0 }
    subcomponents := b.subcomponents
    diagnostics := b.diagnostics.map fun d =>
      match d.operator with
      | some _ => d
      | none => d.inOperator b.name }

/-- The finished operator, made of its signals and instances. -/
def finish (b : Builder) : BuiltOperator := b.finishWith .datapath

/-- What some steps return, and the operator after them. If one of them fails,
there is no operator. -/
def construct {α : Type} (b : Builder) (steps : Build α) : Except BuildError (α × BuiltOperator) :=
  match steps b with
  | .ok a b => .ok (a, b.finish)
  | .error e _ => .error e

end Builder

namespace Build

/-- A step of the schedule alone. -/
def schedule {α : Type} (step : Scheduling α) : Build α := fun b =>
  let s := b.schedule
  let b := { b with schedule := default }
  match step s with
  | .ok a s => .ok a { b with schedule := s }
  | .error e s => .error e { b with schedule := s }

/-- A change of the schedule that cannot fail. -/
def reschedule (f : Schedule → Schedule) : Build Unit :=
  modify fun b =>
    let s := b.schedule
    let b := { b with schedule := default }
    { b with schedule := f s }

/-- The current point in time. -/
def now : Build Instant := fun b => .ok b.schedule.now b

/-- Moves to a point in time. -/
def moveTo (point : Instant) : Build Unit := reschedule (·.moveTo point)

/-- Starts the next cycle. -/
def nextCycle : Build Unit := reschedule (·.nextCycle)

/-- Adds a record to the construction stream. -/
def record (event : Event) : Build Unit := modify fun b => { b with events := b.events.push event }

/-- A new internal signal. -/
def declare (name : String) (width : Nat) : Build SignalId := do
  let id ← schedule (Schedule.declare name width)
  record (.declare id)
  return id

/-- A use of a signal now. -/
def read (id : SignalId) : Build SignalRef := do
  let use ← schedule (Schedule.read id)
  record (.read use)
  return use

/-- A combinational element. -/
def advance (delay : Delay) (what : String) : Build Bool := schedule (Schedule.advance delay what)

/-- Moves forward until a signal is there. -/
def syncTo (id : SignalId) : Build Unit := schedule (Schedule.syncTo id)

/-- A port of the operator. -/
def addPort (port : Port) : Build Unit := modify fun b => { b with ports := b.ports.push port }

/-- A new input port, which is there from the start. -/
def addInput (name : String) (width : Nat) : Build SignalId := do
  let id ← schedule (Schedule.declareInput name width 0.0)
  addPort { name, width, direction := .input, cycle := 0 }
  record (.declare id)
  return id

/-- A new output port driven by `source`, as soon as that is there. -/
def addOutput (name : String) (width : Nat) (source : SignalId) : Build SignalId := do
  syncTo source
  record (.read (← schedule (Schedule.read source)))
  let id ← schedule (Schedule.declareOutput name width)
  let point ← now
  addPort { name, width, direction := .output, cycle := point.cycle }
  record (.declare id)
  return id

/-- An instance of a component, now. -/
def instantiate (component label : String) (ports : List PortBinding) : Build InstanceId := do
  let point ← now
  let id := (← get).instances.size
  modify fun b =>
    { b with instances := b.instances.push { component, label, ports, cycle := point.cycle } }
  record (.instantiate id)
  return id

/-- The definition of a component that instances need. The first one of a
name stays. -/
def addSubcomponent (c : Component) : Build Unit :=
  modify fun b =>
    if b.subcomponents.any (·.name == c.name) then b
    else { b with subcomponents := b.subcomponents.push c }

/-- Reports something that does not stop the construction. -/
def diagnose (d : Diagnostic) : Build Unit :=
  modify fun b => { b with diagnostics := b.diagnostics.push d }

/-- A number never given before in this construction. -/
def uniqueId : Build Nat := fun b => .ok b.nextUid { b with nextUid := b.nextUid + 1 }

/-- Fails. -/
def refuse {α : Type} (fault : ParameterFault) : Build α := throw (.configuration fault)

/-- Runs steps that cannot change the builder. -/
def ofExcept {α : Type} : Except BuildError α → Build α
  | .ok a => pure a
  | .error e => throw e

end Build

end Datapath
