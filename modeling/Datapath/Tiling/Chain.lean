/-
Cascades of blocks.

* `above?`: the block that sits directly on top of another one, with the
  same columns.
* `climb`: a cascade from its lowest block upwards.
* `chains`: all cascades of at most a given length, as lists of blocks from
  the lowest up.
* `chainPlacements`: the blocks linked into these cascades, and the lowest
  blocks of all of them.
* `members`: the cascade from its lowest block, read off the links.
-/
import Datapath.Tiling.Placement

namespace Datapath.Tiling

/-- The first block that sits directly on top of block `i`. -/
def above? (ps : Array Placement) (i : Nat) : Option Nat := do
  let r := (← ps[i]?).rect
  ps.findIdx? fun q => q.rect.x == r.x && q.rect.width == r.width && q.rect.y == r.top

/-- The blocks on top of block `i`, at most `limit` of them, up to one that
belongs to a cascade already; and which blocks belong to one then. -/
def climb (ps : Array Placement) : (limit : Nat) → (linked : Array Bool) → (i : Nat) →
    List Nat × Array Bool
  | 0, linked, _ => ([], linked)
  | limit + 1, linked, i =>
    match above? ps i with
    | some j =>
      if linked.getD j true then ([], linked)
      else
        let (rest, linked) := climb ps limit (linked.setIfInBounds j true) j
        (j :: rest, linked)
    | none => ([], linked)

/-- The cascades that begin at the blocks of `order` that belong to none. -/
def chainsFrom (ps : Array Placement) (limit : Nat) : List Nat → Array Bool → List (List Nat)
  | [], _ => []
  | i :: order, linked =>
    if linked.getD i true then chainsFrom ps limit order linked
    else
      let (rest, linked) := climb ps limit (linked.setIfInBounds i true) i
      (i :: rest) :: chainsFrom ps limit order linked

/-- The blocks by column and then from low to high; of two at one corner the
earlier first. -/
def scanOrder (ps : Array Placement) : List Nat :=
  let corner (i : Nat) : Nat × Nat := (ps[i]?.map fun p => (p.rect.x, p.rect.y)).getD (0, 0)
  (List.range ps.size).mergeSort fun i j =>
    let (a, b) := (corner i, corner j)
    a.1 < b.1 || (a.1 == b.1 && a.2 ≤ b.2)

/-- The cascades of at most `maxLen` blocks, but at least one. -/
def chains (ps : Array Placement) (maxLen : Nat) : List (List Nat) :=
  chainsFrom ps (maxLen - 1) (scanOrder ps) (Array.replicate ps.size false)

/-- Links each block of a cascade to the one after it. -/
def link (ps : Array Placement) : List Nat → Array Placement
  | i :: j :: rest =>
    let ps := ps.modify i fun p => { p with next := some j }
    link (ps.modify j fun p => { p with prev := some i }) (j :: rest)
  | _ => ps

/-- The lowest blocks of all cascades in ascending order, and the blocks with
the links of these cascades and no others. -/
def chainPlacements (ps : Array Placement) (maxLen : Nat) : List Nat × Array Placement :=
  let cs := chains ps maxLen
  let bare := ps.map fun p => { p with prev := none, next := none }
  ((cs.filterMap List.head?).mergeSort (· ≤ ·), cs.foldl link bare)

/-- The blocks above `i`, at most `limit` of them, by the links. -/
def follow (ps : Array Placement) : (limit : Nat) → (i : Nat) → List Nat
  | 0, _ => []
  | limit + 1, i =>
    match ps[i]?.bind (·.next) with
    | some j => j :: follow ps limit j
    | none => []

/-- The cascade that begins at `head`, by the links. No cascade has more
members than there are blocks. -/
def members (ps : Array Placement) (head : Nat) : List Nat := head :: follow ps ps.size head

end Datapath.Tiling
