/-
Random choices.

* `Source`: what a random walk asks for, a choice among a few or among many,
  and a number between zero and one. Any stream of choices can be put here.
* `pick`: an even choice below a bound from words of a given width. A word is
  widened by the bound and kept if its low part is not in the uneven rest.
* `seeded`: the choices from a stream of words.
-/
import Datapath.Bits
import Datapath.Random.ChaCha

namespace Datapath.Random

/-- Where random choices come from. -/
structure Source (σ : Type) where
  /-- A choice below a small bound. -/
  few : Nat → σ → Nat × σ
  /-- A choice below any bound. -/
  many : Nat → σ → Nat × σ
  /-- A number from zero up to and without one. -/
  unit : σ → Float × σ

/-- An even choice below `bound` from words of `bits` bits. At least half of
all words are kept, and after `tries` words the choice is zero. -/
def pick {σ : Type} (bits : Nat) (next : σ → Nat × σ) (bound : Nat) : (tries : Nat) → σ → Nat × σ
  | 0, s => (0, s)
  | tries + 1, s =>
    let (v, s) := next s
    let wide := v * bound
    let zone := (bound <<< (bits - bitLength bound)) - 1
    if wide % (1 <<< bits) ≤ zone then (wide >>> bits, s) else pick bits next bound tries s

/-- The number of words that a choice may take. -/
def patience : Nat := 0x10000

/-- The choices from a stream of words. -/
def seeded : Source WordStream where
  few bound := pick 32 (fun w => ((w.next32).1.toNat, (w.next32).2)) bound patience
  many bound := pick 64 (fun w => ((w.next64).1.toNat, (w.next64).2)) bound patience
  unit w :=
    let (x, w) := w.next64
    (Float.ofNat (x >>> 11).toNat * Float.ofBits 0x3CA0000000000000, w)

end Datapath.Random
