/-
Reading JSON documents.

* `text?`: a text behind its opening quote. Characters beyond sixteen bits are
  written as two escapes.
* `number?`: a number. Whole numbers of 64 bits stay whole ones, unless they
  are written with a point, an exponent or as minus zero.
* `value?`: a value, and what follows it. Lists and tables nest only so deep,
  and of fields with the same name the last one counts.
* `parse?`: a document as a tree.
-/
import Datapath.Decimal.Read
import Datapath.Document.Value
import Datapath.Text.Digits

namespace Datapath.Json

open Document (Value)

/-- The greatest depth of lists and tables. -/
def maxDepth : Nat := 127

/-- What follows white space. -/
def skip (cs : List Char) : List Char :=
  cs.dropWhile fun c => c = ' ' || c = '\t' || c = '\n' || c = '\r'

/-! ### Texts -/

/-- The character of the escape behind `\u`, and the length of the escape. -/
def codePoint? (cs : List Char) : Option (Char × Nat) := do
  let high ← Text.fixed? 4 cs
  if high.isValidChar then return (Char.ofNat high, 4)
  else
    match cs.drop 4 with
    | '\\' :: 'u' :: cs =>
      let low ← Text.fixed? 4 cs
      if high < 0xDC00 ∧ 0xDC00 ≤ low ∧ low < 0xE000 then
        return (Char.ofNat (0x10000 + (high - 0xD800) * 0x400 + (low - 0xDC00)), 10)
      else none
    | _ => none

/-- The character of the escape behind a backslash, and the length of the
escape. -/
def escape? : List Char → Option (Char × Nat)
  | '"' :: _ => some ('"', 1)
  | '\\' :: _ => some ('\\', 1)
  | '/' :: _ => some ('/', 1)
  | 'b' :: _ => some ('\x08', 1)
  | 'f' :: _ => some ('\x0c', 1)
  | 'n' :: _ => some ('\n', 1)
  | 'r' :: _ => some ('\r', 1)
  | 't' :: _ => some ('\t', 1)
  | 'u' :: cs => (codePoint? cs).map fun (c, length) => (c, length + 1)
  | _ => none

/-- A text up to its closing quote, and what follows it. -/
def text? (cs : List Char) : Option (List Char × List Char) :=
  match cs with
  | [] => none
  | '"' :: rest => some ([], rest)
  | '\\' :: rest => do
    let (c, length) ← escape? rest
    let (text, rest) ← text? (rest.drop length)
    return (c :: text, rest)
  | c :: rest =>
    if c.toNat < 0x20 then none
    else do
      let (text, rest) ← text? rest
      return (c :: text, rest)
termination_by cs.length

/-! ### Numbers and words -/

/-- The characters of numbers and words. -/
def inWord (c : Char) : Bool := c.isAlphanum || c = '+' || c = '-' || c = '.'

/-- A whole number of 64 bits without zeros in front. -/
def whole? (cs : List Char) : Option Int :=
  let (negative, ds) := match cs with
    | '-' :: ds => (true, ds)
    | ds => (false, ds)
  let n : Int := Decimal.digitsValue ds
  let n := if negative then -n else n
  if ds.isEmpty ∨ !ds.all Char.isDigit ∨ (1 < ds.length ∧ ds.head? = some '0') then none
  else if (n = 0 ∧ negative) ∨ n < -0x8000000000000000 ∨ 0x10000000000000000 ≤ n then none
  else some n

/-- A number: digits on both sides of its point, no sign but minus, and no
zeros in front. Numbers too great for a double are refused. -/
def number? (cs : List Char) : Option Value :=
  match whole? cs with
  | some n => some (.int n)
  | none =>
    let body := if cs.head? = some '-' then cs.tail else cs
    let whole := body.takeWhile Char.isDigit
    let pointed := match body.dropWhile Char.isDigit with
      | '.' :: c :: _ => c.isDigit
      | '.' :: [] => false
      | _ => true
    if whole.isEmpty ∨ (1 < whole.length ∧ whole.head? = some '0') ∨ !pointed then none
    else ((Decimal.readDouble? (String.ofList cs)).filter Float.isFinite).map .float

/-- A number or one of the three words. -/
def word? (cs : List Char) : Option Value :=
  if cs = "null".toList then some .null
  else if cs = "true".toList then some (.bool true)
  else if cs = "false".toList then some (.bool false)
  else number? cs

/-! ### Lists and tables -/

/-- The items of a list up to its closing bracket, of which there is at least
one. Each round takes at least one character. -/
def items? (item : List Char → Option (Value × List Char)) :
    (rounds : Nat) → List Char → Option (List Value × List Char)
  | 0, _ => none
  | rounds + 1, cs => do
    let (v, rest) ← item cs
    match skip rest with
    | ',' :: rest =>
      let (vs, rest) ← items? item rounds rest
      return (v :: vs, rest)
    | ']' :: rest => return ([v], rest)
    | _ => none

/-- The fields of a table up to its closing brace, of which there is at least
one. Each round takes at least one character. -/
def fields? (item : List Char → Option (Value × List Char)) :
    (rounds : Nat) → List Char → Option (List (String × Value) × List Char)
  | 0, _ => none
  | rounds + 1, cs =>
    match skip cs with
    | '"' :: rest => do
      let (name, rest) ← text? rest
      match skip rest with
      | ':' :: rest =>
        let (v, rest) ← item rest
        let field := (String.ofList name, v)
        match skip rest with
        | ',' :: rest =>
          let (fields, rest) ← fields? item rounds rest
          return (field :: fields, rest)
        | '}' :: rest => return ([field], rest)
        | _ => none
      | _ => none
    | _ => none

/-- Fields with the last value of every name. -/
def lastOfEach : List (String × Value) → List (String × Value)
  | [] => []
  | field :: fields =>
    if fields.any (·.1 == field.1) then lastOfEach fields else field :: lastOfEach fields

/-- A value, with lists and tables as deep as `depth` allows, and what follows
it. -/
def value? (depth : Nat) (cs : List Char) : Option (Value × List Char) :=
  match depth, skip cs with
  | _, '"' :: rest => do
    let (text, rest) ← text? rest
    return (.text (String.ofList text), rest)
  | depth + 1, '[' :: rest =>
    match skip rest with
    | ']' :: rest => some (.list [], rest)
    | rest => do
      let (vs, rest) ← items? (value? depth) (rest.length + 1) rest
      return (.list vs, rest)
  | depth + 1, '{' :: rest =>
    match skip rest with
    | '}' :: rest => some (.table [], rest)
    | rest => do
      let (fields, rest) ← fields? (value? depth) (rest.length + 1) rest
      return (.table (lastOfEach fields), rest)
  | _, cs => (word? (cs.takeWhile inWord)).map (·, cs.dropWhile inWord)

/-- The tree of a document, if it is one. -/
def parse? (document : String) : Option Value := do
  let (v, rest) ← value? maxDepth document.toList
  if (skip rest).isEmpty then some v else none

end Datapath.Json
