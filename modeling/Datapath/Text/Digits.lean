/-
Digits in bases up to sixteen.

* `digit?`, `digits?`: the value of one digit, and of a row of them.
* `fixed?`: the value of a row of known length.
-/

namespace Datapath.Text

/-- The value of a digit in a base up to sixteen. -/
def digit? (base : Nat) (c : Char) : Option Nat :=
  let n :=
    if c.isDigit then c.toNat - '0'.toNat
    else if 'a' ≤ c.toLower ∧ c.toLower ≤ 'f' then c.toLower.toNat - 'a'.toNat + 10
    else base
  if n < base then some n else none

/-- The number that a row of digits denotes, most significant first. -/
def digits? (base : Nat) (cs : List Char) : Option Nat :=
  cs.foldlM (fun n c => (digit? base c).map (base * n + ·)) 0

/-- The number that the first `count` characters denote in base sixteen. -/
def fixed? (count : Nat) (cs : List Char) : Option Nat :=
  if count ≤ cs.length then digits? 16 (cs.take count) else none

end Datapath.Text
