/-
Products made of small tables.

* `Side`: one side of a rectangle, cut into pieces of one size. The last
  piece is padded, with copies of the sign if the operand has one.
* `Site.addTables`: a rectangle of the product as one table for every pair of
  pieces. The bits that only padding makes are left out.
-/
import Datapath.Product.Site
import Datapath.Tiling.Rect

namespace Datapath

/-- One side of a rectangle, cut into pieces of one size. -/
structure Side where
  lo : Nat
  length : Nat
  /-- The size of the pieces. -/
  size : Nat
  /-- The operand has a sign, and the side reaches up to it. -/
  signed : Bool

namespace Side

/-- The number of pieces. -/
def count (s : Side) : Nat := ceilDiv s.length s.size

/-- Piece `i` is the last one. -/
def isLast (s : Side) (i : Nat) : Bool := i + 1 == s.count

/-- The operand bits of piece `i`. -/
def field (s : Side) (i : Nat) : OperandField :=
  { lo := s.lo + i * s.size
    width := min s.size (s.length - i * s.size)
    padded := s.size
    signExtend := s.signed && s.isLast i }

/-- The bits by which piece `i` is padded. -/
def padding (s : Side) (i : Nat) : Nat := if s.isLast i then s.size * s.count - s.length else 0

end Side

/-- The sizes of the fields of a table that fills one lookup table. -/
def tableFields (t : Target) : Nat × Nat :=
  let inputs := max t.lutInputs 2
  (inputs / 2, inputs - inputs / 2)

/-- The table for a piece of one side and a piece of the other. -/
structure TableCell where
  column : Nat
  row : Nat
  table : ProductTable
  x : OperandField
  y : OperandField
  /-- The signal of its input. -/
  input : SignalId
  /-- The number of its output bits that count. -/
  bits : Nat

namespace Site

open Contributing (build record)

/-- The table for piece `i` of one side and piece `j` of the other, and the
signal of its input. -/
def prepareCell (tag : String) (sx sy : Side) (i j : Nat) : Build TableCell := do
  let x := sx.field i
  let y := sy.field j
  let width := sx.size + sy.size
  let table ← Build.ofExcept (ProductTable.make sx.size sy.size width x.signExtend y.signExtend)
  let input ← Build.declare s!"{tag}_XY_{i}_{j}" width
  return { column := i, row := j, table, x, y, input,
           bits := width - sx.padding i - sy.padding j }

/-- The tables for pairs of pieces. -/
def prepareCells (tag : String) (sx sy : Side) : List (Nat × Nat) → Build (List TableCell)
  | [] => return []
  | (i, j) :: rest => do
    let cell ← prepareCell tag sx sy i j
    return cell :: (← prepareCells tag sx sy rest)

/-- The definition of a table. -/
def defineTable (t : Target) (table : ProductTable) : Build Unit := do
  Build.addSubcomponent (← Build.ofExcept (table.component t))

/-- Adds the entry of a table, whose lowest bit is bit `corner` of the
product. If the table has a sign, its top bit is negative. -/
def addCell (s : Site) (tag : String) (corner : Nat) (c : TableCell) : Contributing Unit := do
  let out ← build do
    let use ← Build.read c.input
    let out ← Build.declare s!"{tag}_PP_{c.column}_{c.row}" c.table.wOut
    let _ ← Build.instantiate c.table.name s!"{tag}_PPTbl_{c.column}_{c.row}" [.signal "X" use]
    return out
  record out (.table c.table c.x c.y)
  let negativeTop := c.x.signExtend || c.y.signExtend
  s.addBits out (fun k => negativeTop && k + 1 == c.bits)
    (corner + c.column * c.table.dx + c.row * c.table.dy : Nat) 0 c.bits

/-- Adds the entries of tables. A table is defined just before its first
entry; those in `defined` are defined already. -/
def addCells (s : Site) (tag : String) (corner : Nat) :
    (defined : List ProductTable) → List TableCell → Contributing Unit
  | _, [] => return
  | defined, c :: rest => do
    if c.table ∉ defined then build (defineTable s.target c.table)
    s.addCell tag corner c
    s.addCells tag corner (defined.insert c.table) rest

/-- Adds a rectangle of the product as tables, row by row. All of them start
together, so each input has as many loads as there are pieces of the first
operand. -/
def addTables (s : Site) (region : Tiling.Rect) : Contributing Unit := do
  if region.area = 0 then return
  else
    let (dx, dy) := tableFields s.target
    let sx : Side := ⟨region.x, region.width, dx, s.signed⟩
    let sy : Side := ⟨region.y, region.height, dy, s.signed⟩
    let tag := s!"{s.tag}_t{← build Build.uniqueId}"
    let cells ← build do
      s.readOperands
      let pairs := (List.range sy.count).flatMap fun j => (List.range sx.count).map fun i => (i, j)
      let cells ← prepareCells tag sx sy pairs
      let delay := match cells with
        | c :: _ => c.table.delay s.target sx.count
        | [] => 0.0
      let _ ← Build.advance delay ProductTable.elementName
      return cells
    s.addCells tag (region.x + region.y) [] cells

end Site

end Datapath
