/-
Reading decimals.

* `toDouble`: the double nearest to `digits * 10 ^ exp`.
* `readDouble?`: a decimal number text: a sign, digits with at most one
  point among or around them, and an exponent. At least one digit is
  needed, and `.5` and `5.` are both numbers.
-/

namespace Datapath.Decimal

/-- The double nearest to `digits * 10 ^ exp`. Exponents far outside the
range of doubles are answered without computing the power. -/
def toDouble (digits : Nat) (exp : Int) : Float :=
  let magnitude := exp + (bitLengthDecimal digits : Int)
  if digits = 0 || magnitude < -400 then 0.0
  else if 400 < magnitude then 1.0 / 0.0
  else Float.ofScientific digits (exp < 0) exp.natAbs
where
  /-- An upper bound on the number of decimal digits of `n`. -/
  bitLengthDecimal (n : Nat) : Nat := n.log2 * 302 / 1000 + 1

/-- The number that a row of digits denotes, most significant first. -/
def digitsValue (ds : List Char) : Nat :=
  ds.foldl (fun n c => 10 * n + (c.toNat - '0'.toNat)) 0

/-- The sign in front of `cs`, and what follows it. -/
def takeSign : List Char → Bool × List Char
  | '-' :: cs => (true, cs)
  | '+' :: cs => (false, cs)
  | cs => (false, cs)

/-- An exponent: nothing, or its mark, a sign and at least one digit up to
the end. -/
def readExponent? : List Char → Option Int
  | [] => some 0
  | c :: cs =>
    if c = 'e' || c = 'E' then
      let (negative, ds) := takeSign cs
      if ds.isEmpty || !ds.all Char.isDigit then none
      else some (if negative then -(digitsValue ds : Int) else digitsValue ds)
    else none

/-- A decimal without sign, up to the end of the text. -/
def readUnsigned? (cs : List Char) : Option Float :=
  let whole := cs.takeWhile Char.isDigit
  let rest := cs.dropWhile Char.isDigit
  let (fraction, rest) := match rest with
    | '.' :: after => (after.takeWhile Char.isDigit, after.dropWhile Char.isDigit)
    | _ => ([], rest)
  if whole.isEmpty && fraction.isEmpty then none
  else (readExponent? rest).map fun e =>
    toDouble (digitsValue (whole ++ fraction)) (e - (fraction.length : Int))

/-- A decimal number. -/
def readDouble? (text : String) : Option Float :=
  let (negative, cs) := takeSign text.toList
  (readUnsigned? cs).map fun x => if negative then -x else x

end Datapath.Decimal
