/-
Operators assembled step by step.

* `Assembly`: an operator under construction with its heaps under names, as
  they are filled or as they were summed up, and the products that were added
  to them.
* `Assembling`: steps of an assembly. One that fails keeps what was done
  before the fault.
* `Assembly.fill`, `Assembly.contribute`, `Assembly.compress`: what is done
  with a heap.
* `Assembly.values`: the values of signals, those of partial products from the
  operands.
-/
import Datapath.Multiplier.Basic

namespace Datapath

/-- An operator under construction and its heaps. -/
structure Assembly where
  target : Target
  builder : Builder
  heaps : List (String × (BitHeap ⊕ HeapOutcome))
  /-- The products added to heaps, with the signals of their operands. -/
  products : List (ProductModel × SignalId × SignalId)

/-- Steps of an assembly. -/
abbrev Assembling := EStateM BuildError Assembly

namespace Assembly

/-- An operator without signals and heaps. -/
def start (name : String) (target : Target) : Assembly :=
  { target, builder := .forTarget name target, heaps := [], products := [] }

/-- The heap with this name, while it can be filled. -/
def heap? (a : Assembly) (label : String) : Option BitHeap :=
  (a.heaps.lookup label).bind (·.getLeft?)

/-- The sum of the heap with this name. -/
def outcome? (a : Assembly) (label : String) : Option HeapOutcome :=
  (a.heaps.lookup label).bind (·.getRight?)

/-- The assembly without a heap. -/
def drop (a : Assembly) (label : String) : Assembly :=
  { a with heaps := a.heaps.filter (·.1 != label) }

/-- The assembly with a heap in place of the one of the same name. -/
def put (a : Assembly) (label : String) (h : BitHeap ⊕ HeapOutcome) : Assembly :=
  { a with heaps := (label, h) :: (a.drop label).heaps }

/-- The given values, and those of partial products of given operands. Of
several products the first one that has the signal counts. -/
def values (a : Assembly) (given : Valuation) : Valuation := fun id =>
  (given id).or (a.products.findSome? fun (m, x, y) => do m.value? id (← given x) (← given y))

/-- A step of the builder alone. -/
def ofBuild {α : Type} (step : Build α) : Assembling α := fun a =>
  match step a.builder with
  | .ok x builder => .ok x { a with builder }
  | .error e builder => .error e { a with builder }

/-- A new heap under a name. -/
def openHeap (label : String) (width : Nat) (lsbWeight : Int) (overflow : Overflow) :
    Assembling BitHeap := fun a =>
  match BitHeap.make width lsbWeight overflow with
  | .ok h => .ok h (a.put label (.inl h))
  | .error e => .error e a

/-- Adds to a heap. -/
def fill (label : String) (h : BitHeap) (addition : Heaping Unit) : Assembling Unit := fun a =>
  match addition h with
  | .ok _ h => .ok () (a.put label (.inl h))
  | .error e h => .error e (a.put label (.inl h))

/-- Adds a product to a heap. -/
def contribute [Tiling.Surroundings] (label : String) (heap : BitHeap) (x y : SignalId)
    (signed : Bool) (weight : Int) (options : MultiplierOptions) :
    Assembling VirtualMultiplier := fun a =>
  let start : Contribution := { builder := a.builder, heap, parts := ∅ }
  match Multiplier.contribute a.target x y signed weight options start with
  | .ok v k =>
    .ok v ({ a with builder := k.builder, products := a.products ++ [(v.model, x, y)] }.put label
      (.inl k.heap))
  | .error e k => .error e ({ a with builder := k.builder }.put label (.inl k.heap))

/-- Sums a heap up. One that cannot be summed up is gone. -/
def compress (label : String) (h : BitHeap) : Assembling HeapOutcome := fun a =>
  match h.compress a.target a.builder with
  | .ok o builder => .ok o ({ a with builder }.put label (.inr o))
  | .error e builder => .error e ({ a with builder }.drop label)

end Assembly

end Datapath
