/-
The shortest decimal that names a binary fraction.

* `Dyadic`: a positive binary fraction `m * 2 ^ q` with the width of the gap
  below it.
* `Scaled`: a decimal `digits * 10 ^ exp`.
* `Dyadic.names`: the decimals that round to a given fraction, tested in
  exact integers.
* `Dyadic.shortest`: of all decimals that round to the fraction, one with
  the fewest digits, and of those the nearest; on a tie the larger.
-/

namespace Datapath.Decimal

/-- A positive binary fraction `m * 2 ^ q`. -/
structure Dyadic where
  m : Nat
  q : Int
  /-- The neighbour below is half as far away as the neighbour above. -/
  narrowBelow : Bool

/-- The fraction held by the bits of a finite double without its sign. -/
def Dyadic.ofBits (bits : UInt64) : Dyadic :=
  let biased := (bits >>> 52 &&& 0x7FF).toNat
  let fraction := (bits &&& 0xFFFFFFFFFFFFF).toNat
  if biased = 0 then { m := fraction, q := -1074, narrowBelow := false }
  else
    { m := 0x10000000000000 + fraction, q := (biased : Int) - 1075,
      narrowBelow := fraction = 0 && 1 < biased }

/-- A decimal `digits * 10 ^ exp`. -/
structure Scaled where
  digits : Nat
  exp : Int
  deriving DecidableEq, Repr

/-- The unit of the digit in front of `n` others. -/
def tenTo (n : Nat) : Nat := Nat.pow 10 n

/-- The order of `a * 10 ^ i` and `n * 2 ^ j`. -/
def compareScaled (a : Nat) (i : Int) (n : Nat) (j : Int) : Ordering :=
  compare ((a * tenTo i.toNat) <<< (-j).toNat) ((n * tenTo (-i).toNat) <<< j.toNat)

namespace Dyadic

/-- The decimal `d` lies among the reals that round to `x`: between the
midpoints to the two neighbours, which count when the last bit of `x` is
even. -/
def names (x : Dyadic) (d : Scaled) : Bool :=
  let below := compareScaled d.digits d.exp (4 * x.m - if x.narrowBelow then 1 else 2) (x.q - 2)
  let above := compareScaled d.digits d.exp (4 * x.m + 2) (x.q - 2)
  let closed := x.m % 2 == 0
  (below == .gt || closed && below == .eq) && (above == .lt || closed && above == .eq)

/-- The least `k` with `x < 10 ^ k`. It is searched upwards from a bound
below it, which the binary length of `x` gives. -/
def decade (x : Dyadic) : Int :=
  let start := ((x.m.log2 : Int) + x.q) * 30103 / 100000 - 1
  ((List.range 6).map fun (i : Nat) => start + i).find?
    (fun k => compareScaled 1 k x.m x.q == .gt) |>.getD (start + 6)

/-- The largest multiple of `10 ^ e` that is at most `x`, in units of
`10 ^ e`. -/
def floorAt (x : Dyadic) (e : Int) : Nat :=
  ((x.m * tenTo (-e).toNat) <<< x.q.toNat) / (tenTo e.toNat <<< (-x.q).toNat)

/-- The decimal in units of `10 ^ e` next to `x` that rounds to `x`, if
there is one. Of two the nearer is taken, and the upper one on a tie. -/
def onGrid? (x : Dyadic) (e : Int) : Option Scaled :=
  let lower : Scaled := { digits := x.floorAt e, exp := e }
  let upper : Scaled := { digits := lower.digits + 1, exp := e }
  match x.names lower, x.names upper with
  | true, true =>
    -- Twice the value against the sum of the two neighbours.
    if compareScaled (2 * lower.digits + 1) e (2 * x.m) x.q == .gt then some lower
    else some upper
  | true, false => some lower
  | false, true => some upper
  | false, false => none

/-- A decimal with the fewest digits among those that round to `x`.
Seventeen digits always suffice. -/
def shortest (x : Dyadic) : Scaled :=
  let k := x.decade
  (List.range 17).findSome? (fun (n : Nat) => x.onGrid? (k - 1 - n))
    |>.getD { digits := x.floorAt (k - 17), exp := k - 17 }

end Dyadic

/-- Trailing zeros moved from the digits to the exponent. -/
def Scaled.strip (d : Scaled) : Scaled :=
  if _h : d.digits ≠ 0 ∧ d.digits % 10 = 0 then
    strip { digits := d.digits / 10, exp := d.exp + 1 }
  else d
termination_by d.digits
decreasing_by omega

/-- The digits and the exponent that name the finite double `x`, without its
sign. -/
def shortestOf (x : Float) : Scaled :=
  let bits := x.toBits &&& 0x7FFFFFFFFFFFFFFF
  if bits = 0 then { digits := 0, exp := 0 } else (Dyadic.ofBits bits).shortest.strip

end Datapath.Decimal
