/-
A stream of random words from a seed.

* `quarterRound`, `doubleRound`, `block`: the ChaCha block function with
  twelve rounds, from a key and the number of the block.
* `keyOfSeed`: a key from a seed of 64 bits, by a linear congruence whose
  states are folded and rotated.
* `WordStream`: the words of all blocks in order; `next32` takes one word and
  `next64` two, the low half first.
-/

namespace Datapath.Random

/-- Sixteen words. -/
abbrev State := Array UInt32

/-- A word rotated left. -/
def rotateLeft (x k : UInt32) : UInt32 := (x <<< k) ||| (x >>> (32 - k))

/-- Word `i` of a state. -/
def word (s : State) (i : Nat) : UInt32 := s.getD i 0

/-- The quarter round on four of the words. -/
def quarterRound (s : State) (a b c d : Nat) : State :=
  let mix (s : State) (x y z : Nat) (k : UInt32) : State :=
    let s := s.setIfInBounds x (word s x + word s y)
    s.setIfInBounds z (rotateLeft (word s z ^^^ word s x) k)
  mix (mix (mix (mix s a b d 16) c d b 12) a b d 8) c d b 7

/-- A round on the columns and a round on the diagonals. -/
def doubleRound (s : State) : State :=
  let s := quarterRound (quarterRound s 0 4 8 12) 1 5 9 13
  let s := quarterRound (quarterRound s 2 6 10 14) 3 7 11 15
  let s := quarterRound (quarterRound s 0 5 10 15) 1 6 11 12
  quarterRound (quarterRound s 2 7 8 13) 3 4 9 14

/-- What a block is computed from: four constants, the key, and the number of
the block. -/
def blockInput (blockKey : Array UInt32) (counter : UInt64) : State :=
  let constants : Array UInt32 := #[0x61707865, 0x3320646e, 0x79622d32, 0x6b206574]
  constants ++ blockKey ++ #[counter.toUInt32, (counter >>> 32).toUInt32, 0, 0]

/-- Twelve rounds, and the input added to what they give. -/
def block (blockKey : Array UInt32) (counter : UInt64) : State :=
  let input := blockInput blockKey counter
  let mixed := Nat.repeat doubleRound 6 input
  Array.zipWith (· + ·) mixed input

/-- `count` words from a seed. -/
def seedWords : (count : Nat) → UInt64 → List UInt32
  | 0, _ => []
  | count + 1, s =>
    let s := s * 6364136223846793005 + 11634580027462260723
    let folded := (((s >>> 18) ^^^ s) >>> 27).toUInt32
    let turn := (s >>> 59).toUInt32
    ((folded >>> turn) ||| (folded <<< ((32 - turn) % 32))) :: seedWords count s

/-- The key of eight words that a seed stands for. -/
def keyOfSeed (seed : UInt64) : Array UInt32 := (seedWords 8 seed).toArray

/-- The words of all blocks in order. -/
structure WordStream where
  blockKey : Array UInt32
  /-- The number of the next block. -/
  counter : UInt64
  /-- What is left of the current block. -/
  rest : List UInt32

namespace WordStream

/-- The stream of a seed. -/
def ofSeed (seed : UInt64) : WordStream := ⟨keyOfSeed seed, 0, []⟩

/-- The next word. -/
def next32 (w : WordStream) : UInt32 × WordStream :=
  match w.rest with
  | x :: rest => (x, { w with rest })
  | [] =>
    match (block w.blockKey w.counter).toList with
    | x :: rest => (x, { w with counter := w.counter + 1, rest })
    | [] => (0, w)

/-- The next two words as one of twice the width. -/
def next64 (w : WordStream) : UInt64 × WordStream :=
  let (low, w) := w.next32
  let (high, w) := w.next32
  (high.toUInt64 <<< 32 ||| low.toUInt64, w)

end WordStream

end Datapath.Random
