/-
How decimals are written.

* `plain`: the shortest digits that name a double, written positionally and
  never with an exponent, so `0.0000001` and `1000000`.
* `scientific`: the same digits with one of them before the point and an
  exponent, so `2.5e-9` and `1e0`.
-/
import Datapath.Decimal.Shortest

namespace Datapath.Decimal

/-- The digits of `d` with the point at its place. -/
def Scaled.positional (d : Scaled) : String :=
  let ds := Nat.toDigits 10 d.digits
  if 0 ≤ d.exp then String.ofList (ds ++ List.replicate d.exp.toNat '0')
  else
    let places := (-d.exp).toNat
    let padded := List.replicate (places + 1 - ds.length) '0' ++ ds
    let whole := padded.length - places
    String.ofList (padded.take whole ++ '.' :: padded.drop whole)

/-- The digits of `d` with the point after the first, and the exponent. -/
def Scaled.exponential (d : Scaled) : String :=
  match Nat.toDigits 10 d.digits with
  | [] => "0e0"
  | c :: rest =>
    let mantissa := if rest.isEmpty then [c] else c :: '.' :: rest
    String.ofList mantissa ++ "e" ++ toString (d.exp + (rest.length : Int))

/-- A double through a layout of its digits, with the sign of zero kept. -/
def signed (layout : Scaled → String) (x : Float) : String :=
  if x.isNaN then "NaN"
  else
    let sign := if x.toBits >>> 63 = 0 then "" else "-"
    sign ++ if x.isInf then "inf" else layout (shortestOf x)

/-- The double `x` written positionally. -/
def plain (x : Float) : String := signed Scaled.positional x

/-- The double `x` written with an exponent. -/
def scientific (x : Float) : String := signed Scaled.exponential x

end Datapath.Decimal
