/-
The compression of a bit heap.

* `BitHeap.settled`: the columns with their constants added up, so that each
  holds at most one.
* `compressor`: a full or half adder over bits of one column. It waits for
  the latest of them.
* `reduceColumns`: one round over all columns. Three bits at a time go
  through a full adder; two that are left over go through a half adder if the
  column would be too tall otherwise.
* `reduceAll`: rounds until no column holds more than two bits.
* `layRows`, `sumRows`: the rows that are left, and their addition.
* `BitHeap.compress`: the rounds and that addition.
-/
import Datapath.Adder.CarrySelect
import Datapath.BitHeap.Outcome

namespace Datapath

/-! ### Constants -/

/-- A constant one in column `w`. -/
def HeapBit.constantOne (w : Nat) : HeapBit :=
  { source := .one, weight := w, cycle := 0, criticalPath := 0.0 }

/-- Columns and their counts of ones from column `w` on, with `carry` ones
from the column before. A column keeps at most one, behind its other bits,
and what the top column does not keep is dropped. -/
def settleOnes (w carry : Nat) : List (List HeapBit × Nat) → List (List HeapBit)
  | [] => []
  | (bits, ones) :: columns =>
    let total := ones + carry
    (if total % 2 = 1 then bits ++ [.constantOne w] else bits) ::
      settleOnes (w + 1) (total / 2) columns

/-- The columns with their constants added up. -/
def BitHeap.settled (h : BitHeap) : List (List HeapBit) :=
  settleOnes 0 0 ((List.range h.width).map fun w => ((h.column w).toList, h.onesAt w))

/-! ### Compressors -/

/-- The name of the compressor with this many inputs. -/
def compressorName (inputs : Nat) : String := s!"Compressor_{inputs}_2"

/-- Uses the signals behind some sources. -/
def readSources : List BitSource → Build Unit
  | [] => return
  | .one :: sources => readSources sources
  | .bit b :: sources => do
    let _ ← Build.read b.signal
    readSources sources

/-- The first point in time at which all bits are there. -/
def allReady (bits : List HeapBit) : Instant :=
  let cycle := bits.foldl (fun c b => max c b.cycle) 0
  { cycle
    criticalPath :=
      (bits.filter (·.cycle == cycle)).foldl (fun d b => d.greater b.criticalPath) 0.0 }

/-- What a compressor made of its inputs. -/
structure Compressed where
  node : Compressor
  sum : HeapBit
  carry : HeapBit

/-- One compressor over bits of column `w`. -/
def compressor (t : Target) (label : String) (w : Nat) (inputs : List HeapBit) :
    Build Compressed := do
  let sources := inputs.map (·.source)
  let width := inputs.length
  let component := compressorName width
  Build.moveTo (allReady inputs)
  readSources sources
  let input ← Build.declare s!"{label}_In0" width
  let _ ← Build.advance (t.lutDelay + t.wireDelay 1) component
  let x ← Build.read input
  let output ← Build.declare s!"{label}_Out0" 2
  let r ← Build.read output
  Build.addSubcomponent (.primitive component [("X0", width)] [("R", 2)])
  let _ ← Build.instantiate component label [.signal "X0" x, .signal "R" r]
  let point ← Build.now
  let bit (index : Nat) : HeapBit :=
    { source := .bit (.plain output index), weight := w + index, cycle := point.cycle,
      criticalPath := point.criticalPath }
  return ⟨⟨output, sources⟩, bit 0, bit 1⟩

/-! ### Rounds -/

/-- A round of a compression. -/
structure Round where
  target : Target
  /-- What the names of its signals begin with. -/
  tag : String
  /-- Counted from one. -/
  number : Nat

namespace Round

/-- Full adders over three bits at a time, from full adder `k` of column `w`
on, and the bits that are left. -/
def fullAdders (r : Round) (w k : Nat) : List HeapBit → Build (List Compressed × List HeapBit)
  | a :: b :: c :: rest => do
    let node ← compressor r.target s!"{r.tag}_r{r.number}_w{w}_fa{k}" w [a, b, c]
    let (nodes, left) ← r.fullAdders w (k + 1) rest
    return (node :: nodes, left)
  | left => return ([], left)

/-- The compressors of column `w`, and the bits that are left. Two of them
need a half adder if other bits, sums or incoming `carries`, stay in their
column. -/
def reduceColumn (r : Round) (w : Nat) (carries column : List HeapBit) :
    Build (List Compressed × List HeapBit) := do
  let (nodes, left) ← r.fullAdders w 0 (HeapBit.sorted column)
  if left.length = 2 ∧ 0 < carries.length + nodes.length then
    let node ← compressor r.target s!"{r.tag}_r{r.number}_w{w}_ha" w left
    return (nodes ++ [node], [])
  else return (nodes, left)

/-- The columns from column `w` on after a round, into the first of which
come `carries`, and the compressors. Carries out of the top column are
dropped. -/
def reduceColumns (r : Round) (w : Nat) (carries : List HeapBit) :
    List (List HeapBit) → Build (List Compressor × List (List HeapBit))
  | [] => return ([], [])
  | column :: columns => do
    let (nodes, left) ← r.reduceColumn w carries column
    let (others, rest) ← r.reduceColumns (w + 1) (nodes.map (·.carry)) columns
    return (nodes.map (·.node) ++ others, (carries ++ nodes.map (·.sum) ++ left) :: rest)

end Round

/-- What the rounds of a compression made of the columns. -/
structure Reduction where
  compressors : List Compressor
  columns : List (List HeapBit)
  rounds : Nat

/-- Rounds until no column holds more than two bits, at most `fuel` of them,
after some rounds that were done already. -/
def reduceAll (t : Target) (tag : String) : (fuel done : Nat) → List (List HeapBit) →
    Build Reduction
  | 0, done, columns => return ⟨[], columns, done⟩
  | fuel + 1, done, columns => do
    if columns.any (2 < ·.length) then
      let (nodes, columns) ← Round.reduceColumns ⟨t, tag, done + 1⟩ 0 [] columns
      let r ← reduceAll t tag fuel (done + 1) columns
      return { r with compressors := nodes ++ r.compressors }
    else return ⟨[], columns, done⟩

/-- The signals of rows from row `r` on. -/
def declareRows (tag : String) (width r : Nat) (columns : List (List HeapBit)) :
    (count : Nat) → Build (List HeapRow)
  | 0 => return []
  | count + 1 => do
    let signal ← Build.declare s!"{tag}_row{r}" width
    let row : HeapRow := ⟨signal, columns.map fun column => column[r]?.map (·.source)⟩
    return row :: (← declareRows tag width (r + 1) columns count)

/-- The height of the tallest of some columns, but at least `least`. -/
def tallest (columns : List (List HeapBit)) (least : Nat) : Nat :=
  columns.foldl (fun n c => max n c.length) least

/-- The rows of columns, as soon as all bits are there. -/
def layRows (tag : String) (width : Nat) (columns : List (List HeapBit)) :
    Build (List HeapRow) := do
  if let some bit := HeapBit.latest columns.flatten then Build.moveTo bit.ready
  readSources (columns.flatten.map (·.source))
  declareRows tag width 0 columns (tallest columns 1)

/-- The sum of rows and, for two of them, the plan of their addition. -/
def sumRows (t : Target) (width : Nat) : List HeapRow → Build (SignalId × Option ChunkPlan)
  | [a, b] => do
    let sum ← carrySelect t a.signal b.signal none width
    return (sum.result, some sum.plan)
  | a :: _ => return (a.signal, none)
  | [] => return (0, none)

/-- Adds up a heap. Every round takes away at least one bit, so there are no
more rounds than bits. -/
def BitHeap.compress (h : BitHeap) (t : Target) : Build HeapOutcome := do
  let columns := h.settled
  let tag := s!"bh{← Build.uniqueId}"
  let done ← reduceAll t tag columns.flatten.length 0 columns
  let rows ← layRows tag h.width done.columns
  let (result, merge) ← sumRows t h.width rows
  return { result, width := h.width, compressors := done.compressors, rows, merge,
           rounds := done.rounds }

end Datapath
