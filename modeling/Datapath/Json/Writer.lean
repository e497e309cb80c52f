/-
Writing JSON documents.

* `quote`: a text between quotes.
* `number`: a floating-point number, always with an exponent, so that it is
  read as one again. What is no number is written as nothing.
* `render`: a document in one line.
-/
import Datapath.Decimal.Layout
import Datapath.Document.Value
import Datapath.Text.Quoted

namespace Datapath.Json

open Document (Value)

/-- A character between quotes. -/
def escape (c : Char) : String :=
  if c = '"' then "\\\""
  else if c = '\\' then "\\\\"
  else if c.toNat < 0x20 then "\\u" ++ Text.hexPadded 4 c.toNat
  else c.toString

/-- A text between quotes, behind `before`. -/
def quote (before : String) (s : String) : String :=
  (s.foldl (fun before c => before ++ escape c) (before ++ "\"")) ++ "\""

/-- A floating-point number. -/
def number (x : Float) : String := if x.isFinite then Decimal.scientific x else "null"

mutual

/-- A value in one line, behind `before`. -/
def append (before : String) : Value → String
  | .null => before ++ "null"
  | .bool b => before ++ toString b
  | .int n => before ++ toString n
  | .float x => before ++ number x
  | .text s => quote before s
  | .list items => appendItems (before ++ "[") items ++ "]"
  | .table fields => appendFields (before ++ "\x7b") fields ++ "\x7d"

/-- Values with commas between them, behind `before`. -/
def appendItems (before : String) : List Value → String
  | [] => before
  | [v] => append before v
  | v :: vs => appendItems (append before v ++ ",") vs

/-- Fields with commas between them, behind `before`. -/
def appendFields (before : String) : List (String × Value) → String
  | [] => before
  | [(name, v)] => append (quote before name ++ ":") v
  | (name, v) :: fields => appendFields (append (quote before name ++ ":") v ++ ",") fields

end

/-- A document in one line. -/
def render (v : Value) : String := append "" v

end Datapath.Json
