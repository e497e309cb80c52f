/-
Texts inside messages.

* `quote`: a text between double quotes, with quotes, backslashes and
  characters that cannot be shown written as escapes.
* `listed`: a list between brackets, its entries separated by commas.
* `hex`, `hexPadded`: a number in base sixteen.
-/
import Datapath.Text.Unprinted

namespace Datapath.Text

/-- A number in base sixteen, in small letters and without leading zeros. -/
def hex (n : Nat) : String := String.ofList (Nat.toDigits 16 n)

/-- A number in base sixteen of at least so many digits. -/
def hexPadded (digits n : Nat) : String :=
  let shown := hex n
  String.ofList (List.replicate (digits - shown.length) '0') ++ shown

/-- A character inside double quotes. -/
def escape (c : Char) : String :=
  if c = '"' then "\\\""
  else if c = '\\' then "\\\\"
  else if c = '\n' then "\\n"
  else if c = '\t' then "\\t"
  else if c = '\r' then "\\r"
  else if c.toNat = 0 then "\\0"
  else if isPrinted c then c.toString
  else "\\u\x7b" ++ hex c.toNat ++ "\x7d"

/-- The text between double quotes. -/
def quote (s : String) : String := "\"" ++ String.join (s.toList.map escape) ++ "\""

/-- The numbers between brackets, in order. -/
def listed (ns : List Nat) : String := "[" ++ ", ".intercalate (ns.map toString) ++ "]"

end Datapath.Text
