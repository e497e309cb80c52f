/-
The components of a run.

* `Library`: the components built so far, each name once, and the log of
  diagnostics.
* `Library.register`: adds an operator and what it uses. A component whose
  name is there already is dropped.
* `Library.reportFailure`: logs a construction that failed.
-/
import Datapath.Component
import Datapath.Diagnostic.Log
import Datapath.Arena
import Std.Data.HashMap

namespace Datapath

/-- A component of a library, counted in order of registration. -/
abbrev ComponentId := Nat

/-- The components of a run and the diagnostics of their construction. -/
structure Library where
  components : Arena Component
  /-- The components by name. -/
  index : Std.HashMap String ComponentId
  log : Log
  deriving Inhabited

namespace Library

/-- The library of a run that has not begun. -/
def empty : Library := ⟨.empty, ∅, .empty⟩

/-- The number of the component with the name of `c`, which is `c` unless
there was one before, and the library with it. -/
def insert (l : Library) (c : Component) : ComponentId × Library :=
  match l.index[c.name]? with
  | some id => (id, l)
  | none =>
    let (id, components) := l.components.alloc c
    (id, { l with components, index := l.index.insert c.name id })

/-- Adds the components that an operator uses, its diagnostics, and the
operator itself, whose number is the answer. -/
def register (l : Library) (built : BuiltOperator) : ComponentId × Library :=
  let l := built.subcomponents.foldl (fun l c => (l.insert c).2) l
  let l := { l with log := l.log.extend built.diagnostics.toList }
  l.insert built.component

/-- Logs that the construction of `operator` failed. -/
def reportFailure (l : Library) (operator : String) (e : BuildError) : Library :=
  { l with log := l.log.emit ((Diagnostic.ofError e).inOperator operator) }

/-- A component of this name is registered. -/
def contains (l : Library) (name : String) : Bool := l.index.contains name

/-- The component with this number. -/
def component? (l : Library) (id : ComponentId) : Option Component := l.components.get? id

/-- The component with this name. -/
def get? (l : Library) (name : String) : Option Component := l.index[name]?.bind l.component?

/-- The components in order of registration. -/
def toList (l : Library) : List Component := l.components.items.toList

/-- The number of components. -/
def size (l : Library) : Nat := l.components.size

/-- Nothing is registered. -/
def isEmpty (l : Library) : Bool := l.components.isEmpty

end Library

end Datapath
