/-
Carry-select additions as hardware.

* `rippleName`, `rippleComponent`: the ripple-carry adder that everything is
  made of.
* `Addition.ripple`: one such adder.
* `Addition.sums`: the sums of all chunks, in parallel.
* `Addition.rawCarries`: the addition that resolves the carries.
* `Addition.select`: the final sums of all chunks, in parallel.
* `awaitOperands`, `carrySelect`: the whole addition, as the plan for it says.
-/
import Datapath.Adder.Plan
import Datapath.Builder

namespace Datapath

/-- The name of the ripple-carry adder of this width. -/
def rippleName (width : Nat) : String := s!"IntAdder_{width}"

/-- The ripple-carry adder of this width: `R = X + Y + Cin`. -/
def rippleComponent (width : Nat) : Component :=
  .primitive (rippleName width) [("X", width), ("Y", width), ("Cin", 1)] [("R", width)]

/-- The carry into an adder. -/
inductive CarryIn where
  | constant (bit : Bool)
  | signal (id : SignalId)

/-- What is connected to the carry port. -/
def CarryIn.bind : CarryIn → Build PortBinding
  | constant bit => return .constant "Cin" (if bit then "1" else "0")
  | signal id => return .signal "Cin" (← Build.read id)

/-- An addition under construction. -/
structure Addition where
  target : Target
  /-- What the names of its signals begin with. -/
  tag : String
  x : SignalId
  y : SignalId
  carryIn : CarryIn

/-- The sums of one chunk: without a carry or, in the first chunk, with the
real one; and with a carry where that is needed. -/
structure ChunkSums where
  plain : SignalId
  raised : Option SignalId
  deriving Inhabited

/-- The sum of an addition and the plan it was built by. -/
structure CarrySelect where
  result : SignalId
  plan : ChunkPlan

namespace Addition

/-- One ripple-carry adder. Without a second operand it adds zero. -/
def ripple (t : Target) (label : String) (x : SignalId) (y : Option SignalId) (carry : CarryIn)
    (width : Nat) : Build SignalId := do
  Build.addSubcomponent (rippleComponent width)
  let xPort := PortBinding.signal "X" (← Build.read x)
  let yPort ← match y with
    | some y => pure (.signal "Y" (← Build.read y))
    | none => pure (.constant "Y" (String.ofList (List.replicate width '0')))
  let carryPort ← carry.bind
  let _ ← Build.advance (t.adderDelay width) (rippleName width)
  let out ← Build.declare s!"{label}_R" width
  let _ ← Build.instantiate (rippleName width) label [xPort, yPort, carryPort]
  return out

/-- The sums of chunk `j`, from the point `start` on, and the latest point at
which a sum is there. The last chunk needs no sum with a carry, since nothing
follows it. -/
def chunkSums (a : Addition) (start latest : Instant) (j : Nat) (c : Chunk) (last : Bool) :
    Build (ChunkSums × Instant) := do
  Build.moveTo start
  let xUse ← Build.read a.x
  let yUse ← Build.read a.y
  let width := c.size + 1
  let sx ← Build.declare s!"{a.tag}_sX{j}_{xUse.delay}" width
  let sy ← Build.declare s!"{a.tag}_sY{j}_{yUse.delay}" width
  if j = 0 then
    let sum ← ripple a.target s!"{a.tag}_cin0" sx (some sy) a.carryIn width
    return (⟨sum, none⟩, latest.later (← Build.now))
  else
    let plain ← ripple a.target s!"{a.tag}_zero{j}" sx (some sy) (.constant false) width
    let latest := latest.later (← Build.now)
    if last then return (⟨plain, none⟩, latest)
    else
      Build.moveTo start
      let raised ← ripple a.target s!"{a.tag}_one{j}" sx (some sy) (.constant true) width
      return (⟨plain, some raised⟩, latest.later (← Build.now))

/-- The sums of all chunks from chunk `j` on. -/
def sums (a : Addition) (start : Instant) : Nat → List Chunk → Instant →
    Build (List ChunkSums × Instant)
  | _, [], latest => return ([], latest)
  | j, c :: cs, latest => do
    let (sum, latest) ← a.chunkSums start latest j c cs.isEmpty
    let (rest, latest) ← a.sums start (j + 1) cs latest
    return (sum :: rest, latest)

/-- Uses the sums of the chunks whose carries are to be resolved. -/
def readSums : List ChunkSums → Build Unit
  | [] => return
  | s :: rest => do
    let _ ← Build.read s.plain
    if let some raised := s.raised then
      let _ ← Build.read raised
    readSums rest

/-- The addition that resolves the carries out of the chunks between the
first and the last, in the next cycle. With no such chunks there is none. -/
def rawCarries (a : Addition) (first : ChunkSums) (middle : List ChunkSums) :
    Build (Option SignalId) := do
  if middle.isEmpty then
    Build.nextCycle
    return none
  else
    readSums middle
    let width := 2 * middle.length
    let zeros ← Build.declare s!"{a.tag}_carryStringZero" width
    let ones ← Build.declare s!"{a.tag}_carryStringOne" width
    Build.nextCycle
    let _ ← Build.read first.plain
    let carry ← Build.declare s!"{a.tag}_cout0" 1
    let raw ← ripple a.target s!"{a.tag}_rawCarrySum" ones (some zeros) (.signal carry) width
    return some raw

/-- The final sum of chunk `i`, from the point `start` on: the sum without a
carry, incremented by the carry into the chunk. -/
def selectChunk (a : Addition) (start : Instant) (first : ChunkSums) (raw : Option SignalId)
    (i : Nat) (c : Chunk) (s : ChunkSums) : Build SignalId := do
  Build.moveTo start
  let carry ← match raw with
    | some raw => Build.read (if i = 1 then first.plain else raw)
    | none => Build.read first.plain
  let bit ← Build.declare s!"{a.tag}_carry{i}_{carry.delay}" 1
  ripple a.target s!"{a.tag}_res{i}" s.plain none (.signal bit) c.size

/-- The final sums of the chunks from chunk `i` on, and the latest point at
which one is there. -/
def select (a : Addition) (start : Instant) (first : ChunkSums) (raw : Option SignalId) :
    Nat → List (Chunk × ChunkSums) → Instant → Build (List SignalId × Instant)
  | _, [], latest => return ([], latest)
  | i, (c, s) :: rest, latest => do
    let result ← a.selectChunk start first raw i c s
    let latest := latest.later (← Build.now)
    let (results, latest) ← a.select start first raw (i + 1) rest latest
    return (result :: results, latest)

/-- Uses signals one after the other. -/
def readAll : List SignalId → Build Unit
  | [] => return
  | id :: rest => do
    let _ ← Build.read id
    readAll rest

/-- The addition by the given plan of at least two chunks. -/
def chunked (a : Addition) (p : ChunkPlan) (first : Chunk) (others : List Chunk) :
    Build SignalId := do
  let start ← Build.now
  let (firstSums, ready) ← a.chunkSums start start 0 first others.isEmpty
  let (otherSums, ready) ← a.sums start 1 others ready
  Build.moveTo ready
  let raw ← a.rawCarries firstSums otherSums.dropLast
  if p.degenerate then
    Build.nextCycle
    Build.diagnose
      ((Diagnostic.plain .warning .uniformChunks
        "register level inserted after carry-propagation chain").withNote
        ("chunk sizes " ++ Text.listed p.sizes))
  let start ← Build.now
  let _ ← Build.read firstSums.plain
  let low ← Build.declare s!"{a.tag}_res0" first.size
  let (high, ready) ← a.select start firstSums raw 1 (others.zip otherSums) start
  Build.moveTo ready
  readAll (low :: high)
  Build.declare s!"{a.tag}_R" p.width

end Addition

/-- Waits for the operands of an addition. The answer is its budget, what is
left of the period then; a period that is used up is closed first. -/
def awaitOperands (x y : SignalId) (cin : Option SignalId) : Build Float := do
  Build.syncTo x
  Build.syncTo y
  if let some c := cin then Build.syncTo c
  let s := (← get).schedule
  if s.pipelined ∧ s.criticalPath.seconds ≥ s.period then Build.nextCycle
  let s := (← get).schedule
  return if s.pipelined then s.period - s.criticalPath.seconds else s.period

/-- The addition `x + y + cin` of `width` bits, as soon as all three are
there. -/
def carrySelect (t : Target) (x y : SignalId) (cin : Option SignalId) (width : Nat) :
    Build CarrySelect := do
  let budget ← awaitOperands x y cin
  let plan ← Build.ofExcept (ChunkPlan.make t width budget)
  let tag := s!"csa{← Build.uniqueId}"
  let carryIn := match cin with
    | some c => CarryIn.signal c
    | none => .constant false
  let a : Addition := { target := t, tag, x, y, carryIn }
  match plan.phase, plan.chunks with
  | .single, _ | _, [] =>
    return ⟨← Addition.ripple t s!"{tag}_add" x (some y) carryIn width, plan⟩
  | _, first :: others => return ⟨← a.chunked plan first others, plan⟩

end Datapath
