/-
Components in documents.

* `Port.codec`, `Signal.codec`, `Instance.codec`: the parts of a component.
* `Event.codec`: the records of the construction stream.
* `Component.codec`: a component with all of these.
-/
import Datapath.Component
import Datapath.Document.Codec

namespace Datapath

open Document

/-- Directions by name. -/
def PortDirection.codec : Codec PortDirection := words [("In", .input), ("Out", .output)]

/-- Ports. -/
def Port.codec : Codec Port := record <| Port.mk
  <$> field "name" string (·.name)
  <*> field "width" (natural 32) (·.width)
  <*> field "direction" PortDirection.codec (·.direction)
  <*> field "cycle" (natural 32) (·.cycle)

/-- Roles of signals by name. -/
def SignalKind.codec : Codec SignalKind :=
  words [("Input", .input), ("Output", .output), ("Wire", .wire)]

/-- Signals. -/
def Signal.codec : Codec Signal := record <| Signal.mk
  <$> field "name" string (·.name)
  <*> field "width" (natural 32) (·.width)
  <*> field "kind" SignalKind.codec (·.kind)
  <*> field "cycle" (natural 32) (·.cycle)
  <*> field "critical_path" delay (·.criticalPath)
  <*> field "lifespan" (natural 32) (·.lifespan)

/-- Uses of signals. -/
def SignalRef.codec : Codec SignalRef := record <| SignalRef.mk
  <$> field "signal" (natural 32) (·.signal)
  <*> field "name" string (·.name)
  <*> field "delay" (natural 32) (·.delay)

/-- What is connected to a port. -/
def PortBinding.codec : Codec PortBinding := choice [
  .holding "Signal"
    (namedRecord <| Prod.mk
      <$> field "formal" string Prod.fst
      <*> field "actual" SignalRef.codec Prod.snd)
    (fun (formal, actual) => .signal formal actual)
    (fun | .signal formal actual => some (formal, actual)
         | _ => none),
  .holding "Constant"
    (namedRecord <| Prod.mk
      <$> field "formal" string Prod.fst
      <*> field "bits" string Prod.snd)
    (fun (formal, bits) => .constant formal bits)
    (fun | .constant formal bits => some (formal, bits)
         | _ => none)]

/-- Components used inside an operator. -/
def Instance.codec : Codec Instance := record <| Instance.mk
  <$> field "component" string (·.component)
  <*> field "name" string (·.label)
  <*> field "ports" (listOf PortBinding.codec) (·.ports)
  <*> field "cycle" (natural 32) (·.cycle)

/-- The records of the construction stream. -/
def Event.codec : Codec Event := choice [
  .holding "Declare" (natural 32) .declare
    (fun | .declare id => some id
         | _ => none),
  .holding "Use" SignalRef.codec .read
    (fun | .read use => some use
         | _ => none),
  .holding "Instance" (natural 32) .instantiate
    (fun | .instantiate id => some id
         | _ => none)]

/-- Lookup tables. -/
def TableBody.codec : Codec TableBody := namedRecord <| TableBody.mk
  <$> field "input_width" (natural 32) (·.inputWidth)
  <*> field "output_width" (natural 32) (·.outputWidth)
  <*> field "values" (arrayOf (natural 128)) (·.values)
  <*> field "in_memory" boolean (·.inMemory)

/-- What components are made of. -/
def Body.codec : Codec Body := choice [
  .word "Primitive" .primitive,
  .word "Datapath" .datapath,
  .holding "Table" TableBody.codec .table
    (fun | .table body => some body
         | _ => none)]

/-- Finished operators. -/
def Component.codec : Codec Component := record <| Component.mk
  <$> field "name" string (·.name)
  <*> field "ports" (arrayOf Port.codec) (·.ports)
  <*> field "signals" (arrayOf Signal.codec) (·.signals)
  <*> field "events" (arrayOf Event.codec) (·.events)
  <*> field "instances" (arrayOf Instance.codec) (·.instances)
  <*> field "body" Body.codec (·.body)
  <*> field "latency" (natural 32) (·.latency)
  <*> field "output_critical_path" delay (·.outputCriticalPath)

end Datapath
