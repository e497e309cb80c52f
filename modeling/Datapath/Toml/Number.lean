/-
Numbers of TOML documents.

* `ungroup?`: a row of digits without the underscores between them.
* `integer?`: whole numbers of 64 bits with sign, also in the bases two, eight
  and sixteen.
* `float?`: floating-point numbers. Those too great for a double are refused,
  unless they are negative.
-/
import Datapath.Decimal.Read
import Datapath.Toml.Text

namespace Datapath.Toml

/-- The digits of a row. An underscore has to stand between two digits. -/
def ungroup? (isDigit : Char → Bool) : List Char → Option (List Char)
  | [] => none
  | [c] => if isDigit c then some [c] else none
  | c :: '_' :: cs => if isDigit c then (ungroup? isDigit cs).map (c :: ·) else none
  | c :: cs => if isDigit c then (ungroup? isDigit cs).map (c :: ·) else none

/-- The digits of a decimal number, which has no zeros in front. -/
def whole? (cs : List Char) : Option (List Char) := do
  let ds ← ungroup? Char.isDigit cs
  if 1 < ds.length ∧ ds.head? = some '0' then none else some ds

/-- Numbers of 64 bits with sign. -/
def inRange? (n : Int) : Option Int :=
  if -0x8000000000000000 ≤ n ∧ n < 0x8000000000000000 then some n else none

/-- A number without sign in some base. -/
def based? (base : Nat) (cs : List Char) : Option Int := do
  let ds ← ungroup? (fun c => (Text.digit? base c).isSome) cs
  inRange? (← Text.digits? base ds)

/-- A whole number. -/
def integer? : List Char → Option Int
  | '0' :: 'x' :: cs => based? 16 cs
  | '0' :: 'o' :: cs => based? 8 cs
  | '0' :: 'b' :: cs => based? 2 cs
  | cs => do
    let (negative, cs) := Decimal.takeSign cs
    let n := Decimal.digitsValue (← whole? cs)
    inRange? (if negative then -(n : Int) else n)

/-- A decimal with a fraction, an exponent or both, without sign. -/
def magnitude? (cs : List Char) : Option Float := do
  let inRow (c : Char) : Bool := c.isDigit || c = '_'
  let whole ← whole? (cs.takeWhile inRow)
  let (fraction, rest) ← match cs.dropWhile inRow with
    | '.' :: cs => (ungroup? Char.isDigit (cs.takeWhile inRow)).map (·, cs.dropWhile inRow)
    | cs => some ([], cs)
  let exponent : Int ← match rest with
    | [] => if fraction.isEmpty then none else some 0
    | mark :: cs =>
      let (negative, cs) := Decimal.takeSign cs
      match ungroup? Char.isDigit cs with
      | some ds =>
        if mark = 'e' ∨ mark = 'E' then
          some (if negative then -(Decimal.digitsValue ds : Int) else Decimal.digitsValue ds)
        else none
      | none => none
  return Decimal.toDouble (Decimal.digitsValue (whole ++ fraction)) (exponent - fraction.length)

/-- A floating-point number. -/
def float? (cs : List Char) : Option Float :=
  let infinity : Float := 1.0 / 0.0
  let (negative, body) := Decimal.takeSign cs
  if body = "inf".toList then some (if negative then -infinity else infinity)
  else if body = "nan".toList then some (0.0 / 0.0)
  else
    match magnitude? body with
    | some x => if negative then some (-x) else if x == infinity then none else some x
    | none => none

end Datapath.Toml
