/-
Delays.

* `Delay`: a delay in seconds, a double that is told apart by its bits. Also
  delays that are no numbers differ then, by their sign and their payload.
* `Delay.plus`, `Delay.times`: sums and multiples. What is no number goes
  through them with its sign and its payload.
* `Delay.greater`: the greater of two delays.
* `Delay.orderKey`: the place of a delay in the order of all doubles.
-/

namespace Datapath

/-- A delay in seconds, as the bits of a double. -/
structure Delay where
  bits : UInt64
  deriving DecidableEq, Repr, Inhabited

namespace Delay

/-- The number of seconds. -/
def seconds (d : Delay) : Float := .ofBits d.bits

/-- The delay of a number of seconds. -/
def ofSeconds (x : Float) : Delay := ⟨x.toBits⟩

instance : Coe Float Delay := ⟨ofSeconds⟩

instance : OfScientific Delay := ⟨fun m s e => ofSeconds (OfScientific.ofScientific m s e)⟩

/-- The delay is a number, which may be infinite. -/
def isNumber (d : Delay) : Bool := d.bits &&& 0x7FFFFFFFFFFFFFFF ≤ 0x7FF0000000000000

/-! ### Arithmetic -/

/-- What is no number as the result of an operation: the highest bit of the
payload is set. -/
def quiet (d : Delay) : Delay := ⟨d.bits ||| 0x0008000000000000⟩

/-- The result of an operation on numbers that has none, such as the sum of
both infinities. It is negative. -/
def undefined : Delay := ⟨0xFFF8000000000000⟩

/-- The result of an operation on numbers. -/
def ofResult (x : Float) : Delay := if x.isNaN then undefined else ofSeconds x

/-- The sum. If both are no numbers, it is the first one. -/
def plus (a b : Delay) : Delay :=
  if !a.isNumber then a.quiet
  else if !b.isNumber then b.quiet
  else ofResult (a.seconds + b.seconds)

instance : Add Delay := ⟨plus⟩

/-- The delay, `n` times. -/
def times (d : Delay) (n : Nat) : Delay :=
  if d.isNumber then ofResult (Float.ofNat n * d.seconds) else d.quiet

/-! ### Order -/

/-- Delays are compared as numbers; what is no number is neither less nor
greater. -/
instance : LT Delay := ⟨fun a b => a.seconds < b.seconds⟩

instance (a b : Delay) : Decidable (a < b) := inferInstanceAs (Decidable (a.seconds < b.seconds))

/-- The greater of two delays, the second one if they are equal. One that is
no number does not count beside one that is. -/
def greater (a b : Delay) : Delay := if b < a ∨ b.isNumber = false then a else b

/-- The place of a delay in the order of all doubles, in which minus zero is
below zero. What is no number is beyond the infinities, on the side of its
sign. -/
def orderKey (d : Delay) : Int :=
  let n := d.bits.toNat
  if n < 0x8000000000000000 then n else 0x7FFFFFFFFFFFFFFF - (n : Int)

end Delay

end Datapath
