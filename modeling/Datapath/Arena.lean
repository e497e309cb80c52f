/-
Append-only stores.

* `Arena`: items that are only ever added, so that the number an item gets
  when it arrives names it for good.
* `Arena.alloc`, `Arena.update`: adding an item, and changing one in place.
* `get?_alloc_self`, `get?_alloc_of_lt`: a new item is found under its
  number, and the items before it stay where they are.
-/

namespace Datapath

/-- Items in order of arrival. -/
structure Arena (α : Type) where
  items : Array α
  deriving Repr

namespace Arena

variable {α : Type}

/-- The store before anything arrived. -/
def empty : Arena α := ⟨#[]⟩

instance : Inhabited (Arena α) := ⟨empty⟩

/-- The number of items. -/
def size (a : Arena α) : Nat := a.items.size

/-- Nothing has arrived yet. -/
def isEmpty (a : Arena α) : Bool := a.items.isEmpty

/-- The number of the next item, and the store with that item. -/
def alloc (a : Arena α) (item : α) : Nat × Arena α := (a.items.size, ⟨a.items.push item⟩)

/-- The item with this number. -/
def get? (a : Arena α) (id : Nat) : Option α := a.items[id]?

/-- The store with one item changed, or as it was if there is no such
item. -/
def update (a : Arena α) (id : Nat) (f : α → α) : Arena α := ⟨a.items.modify id f⟩

/-- The items with their numbers. -/
def entries (a : Arena α) : List (Nat × α) := a.items.toList.zipIdx.map fun (x, i) => (i, x)

theorem get?_alloc_self (a : Arena α) (item : α) : (a.alloc item).2.get? a.size = some item := by
  simp [alloc, get?, size]

theorem get?_alloc_of_lt (a : Arena α) (item : α) {id : Nat} (h : id < a.size) :
    (a.alloc item).2.get? id = a.get? id := by
  simp only [size] at h
  simp [alloc, get?, Array.getElem?_push, Nat.ne_of_lt h]

theorem get?_update (a : Arena α) (id other : Nat) (f : α → α) :
    (a.update id f).get? other = if id = other then (a.get? other).map f else a.get? other := by
  simp only [update, get?, Array.getElem?_modify]

end Arena

end Datapath
