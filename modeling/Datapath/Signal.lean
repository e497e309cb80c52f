/-
Signals of an operator.

* `SignalKind`: the role of a signal, input, output or internal.
* `Signal`: a named value of fixed width, the cycle and the delay within the
  cycle at which it is produced, and the number of registers behind it.
* `SignalRef`: a use of a signal some cycles later.
-/
import Datapath.Delay
import Datapath.Error

namespace Datapath

/-- The role of a signal. -/
inductive SignalKind where
  | input
  | output
  | wire
  deriving DecidableEq, Repr, Inhabited

/-- A named value of fixed width. -/
structure Signal where
  name : String
  width : Nat
  kind : SignalKind
  /-- The cycle in which the value is produced. -/
  cycle : Nat
  /-- The delay within that cycle. -/
  criticalPath : Delay
  /-- The longest time in cycles from the production to a use. -/
  lifespan : Nat
  deriving Inhabited

/-- A use of a signal, `delay` cycles after its production. -/
structure SignalRef where
  signal : SignalId
  name : String
  delay : Nat
  deriving DecidableEq, Repr, Inhabited

/-- The name of the signal, marked with the delay if there is one. -/
def SignalRef.text (r : SignalRef) : String :=
  if r.delay = 0 then r.name else s!"{r.name}_d{r.delay}"

end Datapath
