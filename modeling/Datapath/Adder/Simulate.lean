/-
What a carry-select addition computes.

* `Chunk.add`: the sum of two chunks and its carry.
* `resolveCarries`: the carries into the chunks, read off one addition of
  two interleaved bit strings.
* `ChunkPlan.simulate`: the sum that the planned structure puts out.
-/
import Datapath.Adder.Plan
import Datapath.Bits

namespace Datapath

namespace Chunk

/-- The bits of `v` that belong to a chunk. -/
def select (c : Chunk) (v : Nat) : Nat := truncateTo c.size (v >>> c.offset)

/-- The sum of two values of a chunk and a carry, and the carry out of
it. -/
def add (c : Chunk) (a b carry : Nat) : Nat × Nat :=
  (truncateTo c.size (a + b + carry), bitAt (a + b + carry) (min c.size wordBits))

end Chunk

/-- The carries out of a row of chunks. Every chunk is given by its carries
without and with a carry into it; `running` is the carry into the first. For
each chunk the two carries and the running one are added, and the carry of
that goes through a bit that propagates it, which comes out inverted. -/
def resolveCarries : Nat → List (Nat × Nat) → List Nat
  | _, [] => []
  | running, (without, raised) :: rest =>
    let carry := (raised + without + running) / 2
    let through := 1 + carry
    (if through % 2 = 0 then 1 else 0) :: resolveCarries (through / 2) rest

namespace ChunkPlan

/-- The sum of `x`, `y` and the carry `cin` as the structure computes it. The
first chunk adds with the carry. Every other chunk adds twice, without and
with a carry; the carries into the chunks are resolved by one more addition,
and what each chunk added without a carry is incremented by its own. -/
def simulate (p : ChunkPlan) (x y : Nat) (cin : Bool) : Except BuildError Nat :=
  if wordBits < p.width then .error (.configuration (.additionTooWide p.width))
  else
    match p.chunks with
    | [] => .error (.invariant .noChunks)
    | first :: others =>
      let (low, carry) := first.add (first.select x) (first.select y) cin.toNat
      let middle := others.dropLast.map fun c =>
        ((c.add (c.select x) (c.select y) 0).2, (c.add (c.select x) (c.select y) 1).2)
      let carries := carry :: resolveCarries carry middle
      .ok ((others.zip carries).foldl
        (fun sum (c, carry) =>
          let plain := (c.add (c.select x) (c.select y) 0).1
          sum ||| wrap ((c.add plain 0 carry).1 <<< c.offset))
        low)

end ChunkPlan

end Datapath
