/-
Short accounts of components.

* `Component.eventText`: a record of the construction stream as text.
* `Component.instanceCounts`: how often each component is used.
* `Component.signalCycles`, `Component.instanceCycles`, `Component.useDelays`:
  sums over signals, instances and uses.
* `TableBody.sum`, `TableBody.weightedSum`: check sums of a table, of one word
  each.
-/
import Datapath.Bits
import Datapath.Component
import Std.Data.HashMap

namespace Datapath

namespace Component

/-- A record of the construction stream as text. -/
def eventText (c : Component) : Event → String
  | .declare id => s!"D{(id : Nat)}"
  | .read use => s!"U{(use.signal : Nat)}+{use.delay}"
  | .instantiate id => s!"I{(id : Nat)}=" ++ ((c.instance? id).map (·.label)).getD ""

/-- The components used with the number of their instances, by name. -/
def instanceCounts (c : Component) : List (String × Nat) :=
  let counts : Std.HashMap String Nat :=
    c.instances.foldl (fun m i => m.insert i.component (m.getD i.component 0 + 1)) ∅
  counts.toList.mergeSort fun a b => a.1 ≤ b.1

/-- The sum of the cycles of all signals. -/
def signalCycles (c : Component) : Nat := c.signals.foldl (fun n s => n + s.cycle) 0

/-- The sum of the cycles of all instances. -/
def instanceCycles (c : Component) : Nat := c.instances.foldl (fun n i => n + i.cycle) 0

/-- The sum of the delays of all uses of signals. -/
def useDelays (c : Component) : Nat := c.events.foldl (fun n e => n + delay e) 0
where
  delay : Event → Nat
    | .read use => use.delay
    | _ => 0

end Component

namespace TableBody

/-- The sum of all entries. -/
def sum (t : TableBody) : Nat := wrap (t.values.foldl (· + ·) 0)

/-- The sum of all entries, each one times its place from one on. -/
def weightedSum (t : TableBody) : Nat :=
  wrap (t.values.zipIdx.foldl (fun n (v, i) => n + (i + 1) * v) 0)

end TableBody

end Datapath
