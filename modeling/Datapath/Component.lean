/-
Finished operators.

* `Port`, `PortBinding`, `Instance`: the ports of a component, and what is
  connected to them where the component is used.
* `Event`: one record of the construction stream.
* `Body`: what a component is made of.
* `Component`: a finished operator; `Component.primitive` is one without a
  body.
* `BuiltOperator`: an operator with the components it is made from and the
  diagnostics of its construction.
-/
import Datapath.Diagnostic.Basic
import Datapath.Signal

namespace Datapath

/-- The direction of a port. -/
inductive PortDirection where
  | input
  | output
  deriving DecidableEq, Repr, Inhabited

/-- A port of a component. -/
structure Port where
  name : String
  width : Nat
  direction : PortDirection
  /-- The cycle in which an input is read or an output is valid. -/
  cycle : Nat
  deriving DecidableEq, Repr, Inhabited

/-- What is connected to a port of an instance. -/
inductive PortBinding where
  | signal (formal : String) (actual : SignalRef)
  /-- A constant, its most significant bit first. -/
  | constant (formal : String) (bits : String)
  deriving DecidableEq, Repr, Inhabited

namespace PortBinding

/-- The name of the port. -/
def formal : PortBinding → String
  | signal formal _ => formal
  | constant formal _ => formal

/-- The port and what is connected to it. -/
def text : PortBinding → String
  | signal formal actual => formal ++ " => " ++ actual.text
  | constant formal bits => formal ++ " => \"" ++ bits ++ "\""

end PortBinding

/-- A component used inside an operator. -/
structure Instance where
  component : String
  label : String
  ports : List PortBinding
  /-- The cycle in which the inputs are read. -/
  cycle : Nat
  deriving DecidableEq, Repr, Inhabited

/-- An instance of an operator, counted in the order of construction. -/
abbrev InstanceId := Nat

/-- One record of the construction stream. -/
inductive Event where
  | declare (id : SignalId)
  | read (use : SignalRef)
  | instantiate (id : InstanceId)
  deriving DecidableEq, Repr, Inhabited

/-- A lookup table: the output for each input, in input order. -/
structure TableBody where
  inputWidth : Nat
  outputWidth : Nat
  values : Array Nat
  /-- The table lives in a memory block and not in logic. -/
  inMemory : Bool
  deriving DecidableEq, Repr, Inhabited

/-- What a component is made of. -/
inductive Body where
  /-- Nothing: the component is taken from a library. -/
  | primitive
  /-- Signals and instances. -/
  | datapath
  | table (body : TableBody)
  deriving DecidableEq, Repr, Inhabited

/-- A finished operator. -/
structure Component where
  name : String
  ports : Array Port
  /-- Every signal declared, ports included. -/
  signals : Array Signal
  /-- The construction stream. -/
  events : Array Event
  instances : Array Instance
  body : Body
  /-- The cycles between inputs and outputs. -/
  latency : Nat
  /-- The delay within the cycle of the outputs. -/
  outputCriticalPath : Delay
  deriving Inhabited

namespace Component

/-- A component without a body, with these inputs and outputs. -/
def primitive (name : String) (inputs outputs : List (String × Nat)) : Component where
  name
  ports := (inputs.map (port .input) ++ outputs.map (port .output)).toArray
  signals := #[]
  events := #[]
  instances := #[]
  body := .primitive
  latency := 0
  outputCriticalPath := 0.0
where
  port (direction : PortDirection) (p : String × Nat) : Port :=
    { name := p.1, width := p.2, direction, cycle := 0 }

/-- The first port with this name. -/
def port? (c : Component) (name : String) : Option Port := c.ports.find? (·.name == name)

/-- The instance with this number. -/
def instance? (c : Component) (id : InstanceId) : Option Instance := c.instances[id]?

/-- The number of instances of a component. -/
def countInstances (c : Component) (component : String) : Nat :=
  c.instances.toList.countP (·.component == component)

/-- The number of register bits that the lifespans of the signals add up
to. -/
def registerBits (c : Component) : Nat :=
  c.signals.foldl (fun total s => total + s.lifespan * s.width) 0

end Component

/-- An operator with everything its construction produced. -/
structure BuiltOperator where
  component : Component
  /-- The components that it uses, in order of creation. -/
  subcomponents : Array Component
  diagnostics : Array Diagnostic
  deriving Inhabited

end Datapath
