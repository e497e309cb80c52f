/-
Widths and words.

* `bitLength`: the number of binary digits of a natural number.
* `wordBits`, `wrap`, `wrapSigned`: values travel in words of 128 bits, and what
  does not fit is dropped.
* `wrap32`, `wrap64`, `wrapSigned64`: so do widths, places and weights, in shorter
  words. Nothing checks their sums.
* `lowMask`: the word whose low bits are set.
* `ceilDiv`, `ceilDiv?`: division rounded up.
* `truncateTo`, `bitAt`, `wordBit`: the low bits of a value and one of its
  bits.
* `signedValue`, `truncateInt`: two's complement, read and written.
-/

namespace Datapath

/-- The number of binary digits of `n`; zero has none. -/
def bitLength (n : Nat) : Nat := if n = 0 then 0 else n.log2 + 1

/-- The width of the words that values travel in. -/
def wordBits : Nat := 128

/-- What remains of `n` in one word. -/
def wrap (n : Nat) : Nat := n % (1 <<< wordBits)

/-- What remains of `n` in one word with a sign. -/
def wrapSigned (n : Int) : Int := n.bmod (1 <<< wordBits)

/-- What remains of a width or a place, which has 32 bits. -/
def wrap32 (n : Nat) : Nat := n % (1 <<< 32)

/-- What remains of a count of cells, which has 64 bits. -/
def wrap64 (n : Nat) : Nat := n % (1 <<< 64)

/-- What remains of a weight, which has 64 bits and a sign. -/
def wrapSigned64 (n : Int) : Int :=
  (n + (1 <<< 63 : Nat)) % (1 <<< 64 : Nat) - (1 <<< 63 : Nat)

/-- The word with the low `width` bits set, all of them from the word width
on. -/
def lowMask (width : Nat) : Nat := (1 <<< min width wordBits) - 1

/-- The low `width` bits of `n`, where `width` counts at most one word. -/
def truncateTo (width n : Nat) : Nat := n % (1 <<< min width wordBits)

/-- Division rounded up. -/
def ceilDiv (a b : Nat) : Nat := (a + b - 1) / b

/-- Division rounded up, which has no answer for the divisor zero. -/
def ceilDiv? (a b : Nat) : Option Nat := if b = 0 then none else some (ceilDiv a b)

/-- Bit `i` of `n`, as a number. -/
def bitAt (n i : Nat) : Nat := (n >>> i) % 2

/-- Bit `i` of a word, which has none beyond its width. -/
def wordBit (n i : Nat) : Nat := if i < wordBits then bitAt n i else 0

/-- The low `width` bits of `n` as a number with a sign, in two's complement.
The width counts at most one word. -/
def signedValue (width n : Nat) : Int :=
  let low := truncateTo width n
  if 0 < width ∧ width < wordBits ∧ bitAt low (width - 1) = 1 then
    wrapSigned (low - wrapSigned (1 <<< width : Nat))
  else wrapSigned low

/-- The low `width` bits of an integer in two's complement, where `width`
counts at most one word. -/
def truncateInt (width : Nat) (n : Int) : Nat := (n % (1 <<< min width wordBits : Nat)).toNat

theorem truncateTo_lt (width n : Nat) : truncateTo width n < 1 <<< width := by
  have h := Nat.pow_le_pow_right Nat.two_pos (Nat.min_le_left width wordBits)
  simp only [truncateTo, Nat.one_shiftLeft]
  exact Nat.lt_of_lt_of_le (Nat.mod_lt _ (Nat.two_pow_pos _)) h

theorem bitAt_le_one (n i : Nat) : bitAt n i ≤ 1 := by
  unfold bitAt
  omega

end Datapath
