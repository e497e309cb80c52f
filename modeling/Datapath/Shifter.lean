/-
Barrel shifters.

* `Shifter.build`: a shifter with inputs `X` and `S` and output `R`. Level `l`
  shifts by `2 ^ l` if bit `l` of `S` is set. A shifter to the right keeps all
  bits of its input: it puts out `X * 2 ^ (maxShift - S)`.
* `Shifter.emulate`: the output; `Shifter.evaluate`: what the levels make of
  it.
-/
import Datapath.Bits
import Datapath.Builder

namespace Datapath

/-- The direction of a shift. -/
inductive ShiftDirection where
  /-- Towards the most significant bit. -/
  | left
  /-- Towards the least significant bit. -/
  | right
  deriving DecidableEq, Repr, Inhabited

/-- The word for a direction. -/
def ShiftDirection.text : ShiftDirection → String
  | left => "Left"
  | right => "Right"

/-- A barrel shifter. -/
structure Shifter where
  wIn : Nat
  maxShift : Nat
  direction : ShiftDirection
  deriving DecidableEq, Repr, Inhabited

namespace Shifter

/-- The widest shift amount. -/
def maxAmountBits : Nat := 30

/-- The name of the component. -/
def name (s : Shifter) : String := s!"{s.direction.text}Shifter_{s.wIn}_by_max_{s.maxShift}"

/-- The output width. -/
def wOut (s : Shifter) : Nat := s.wIn + s.maxShift

/-- The width of the shift amount, which is the number of levels. -/
def wShift (s : Shifter) : Nat := bitLength s.maxShift

/-- The width behind `levels` levels. -/
def levelWidth (s : Shifter) (levels : Nat) : Nat := s.wIn + (1 <<< levels) - 1

/-- The levels from level `l` on, each a multiplexer behind the one before,
and the signal of the last. -/
def buildLevels (s : Shifter) (t : Target) (amount : SignalId) (l : Nat) (level : SignalId) :
    (count : Nat) → Build SignalId
  | 0 => return level
  | count + 1 => do
    let width := s.levelWidth (l + 1)
    let _ ← Build.read level
    let _ ← Build.read amount
    let _ ← Build.advance (t.wireDelay width + t.lutDelay) "shifter multiplexer level"
    let next ← Build.declare s!"level{l + 1}" width
    s.buildLevels t amount (l + 1) next count

/-- The steps that build a shifter. -/
def steps (s : Shifter) (t : Target) : Build Unit := do
  let x ← Build.addInput "X" s.wIn
  let amount ← Build.addInput "S" s.wShift
  let _ ← Build.read x
  let level ← Build.declare "level0" s.wIn
  let _ ← Build.read amount
  let amount ← Build.declare "ps" s.wShift
  let last ← s.buildLevels t amount 0 level s.wShift
  let _ ← Build.addOutput "R" s.wOut last

/-- A shifter of `wIn` bits by up to `maxShift`. -/
def build (t : Target) (wIn maxShift : Nat) (direction : ShiftDirection) :
    Except BuildError (Shifter × BuiltOperator) :=
  let s : Shifter := { wIn, maxShift, direction }
  if wIn = 0 ∨ maxShift = 0 then .error (.configuration (.emptyShifter wIn maxShift))
  else if maxAmountBits < s.wShift then .error (.configuration (.shiftTooWide s.wShift))
  else do
    let (_, built) ← (Builder.forTarget s.name t).construct (s.steps t)
    return (s, built)

/-! ### Values -/

/-- The levels have to fit in one word. -/
def checkWidth (s : Shifter) : Except BuildError Unit :=
  let width := s.levelWidth s.wShift
  if wordBits < width then .error (.configuration (.levelTooWide width)) else .ok ()

/-- The output for an input and a shift amount, of which only the low bits
count. -/
def emulate (s : Shifter) (x amount : Nat) : Except BuildError Nat := do
  s.checkWidth
  let x := truncateTo s.wIn x
  let amount := amount % (1 <<< s.wShift)
  match s.direction with
  | .left => return truncateTo s.wOut (x <<< amount)
  | .right =>
    if amount ≤ s.maxShift then return x <<< (s.maxShift - amount)
    else return x >>> (amount - s.maxShift)

/-- Level `l` shifts up: towards the left if the bit of the amount is set, and
towards the right, to make room below, if it is not. -/
def moves (s : Shifter) (amount l : Nat) : Bool :=
  match s.direction with
  | .left => bitAt amount l == 1
  | .right => bitAt amount l == 0

/-- The value behind the levels from level `l` on. -/
def runLevels (s : Shifter) (amount l : Nat) (v : Nat) : (count : Nat) → Nat
  | 0 => v
  | count + 1 =>
    s.runLevels amount (l + 1) (if s.moves amount l then v <<< (1 <<< l) else v) count

/-- The output as the hardware computes it, level by level. -/
def evaluate (s : Shifter) (x amount : Nat) : Except BuildError Nat := do
  s.checkWidth
  let v := s.runLevels amount 0 (truncateTo s.wIn x) s.wShift
  match s.direction with
  | .left => return truncateTo s.wOut v
  | .right => return v >>> (s.levelWidth s.wShift - s.wOut)

end Shifter

end Datapath
