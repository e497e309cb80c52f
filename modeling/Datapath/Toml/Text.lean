/-
Texts and keys of TOML documents.

* `isSpace`, `isPlain`: blanks inside a line, and the characters that texts
  and comments may hold as they are.
* `unixLines`: a document with line ends of one character.
* `basicText?`, `literalText?`, `multilineText?`: the texts behind their
  opening quotes, and what follows them. Basic ones have escapes, literal ones
  have not.
* `key?`: the names of a dotted key, and what follows them.
-/
import Datapath.Text.Digits

namespace Datapath.Toml

/-- Blanks inside a line. -/
def isSpace (c : Char) : Bool := c = ' ' || c = '\t'

/-- The characters that texts and comments may hold as they are: all but the
controls, and the tab. -/
def isPlain (c : Char) : Bool := c = '\t' || 0x20 ≤ c.toNat && c.toNat ≠ 0x7F

/-- The document with line ends of one character. -/
def unixLines : List Char → List Char
  | '\r' :: '\n' :: cs => '\n' :: unixLines cs
  | c :: cs => c :: unixLines cs
  | [] => []

/-- The document without blanks in front. -/
def skipSpaces (cs : List Char) : List Char := cs.dropWhile isSpace

/-! ### Escapes -/

/-- The character with a number of so many hexadecimal digits. -/
def codePoint? (count : Nat) (cs : List Char) : Option Char := do
  let n ← Text.fixed? count cs
  if n.isValidChar then some (Char.ofNat n) else none

/-- The character of the escape behind a backslash, and the length of the
escape. -/
def escape? : List Char → Option (Char × Nat)
  | 'b' :: _ => some ('\x08', 1)
  | 't' :: _ => some ('\t', 1)
  | 'n' :: _ => some ('\n', 1)
  | 'f' :: _ => some ('\x0c', 1)
  | 'r' :: _ => some ('\r', 1)
  | '"' :: _ => some ('"', 1)
  | '\\' :: _ => some ('\\', 1)
  | 'u' :: cs => (codePoint? 4 cs).map (·, 5)
  | 'U' :: cs => (codePoint? 8 cs).map (·, 9)
  | _ => none

/-! ### Texts of one line -/

/-- A text with escapes up to its closing quote. -/
def basicText? (cs : List Char) : Option (List Char × List Char) :=
  match cs with
  | [] => none
  | '"' :: rest => some ([], rest)
  | '\\' :: rest => do
    let (c, length) ← escape? rest
    let (text, rest) ← basicText? (rest.drop length)
    return (c :: text, rest)
  | c :: rest =>
    if isPlain c then do
      let (text, rest) ← basicText? rest
      return (c :: text, rest)
    else none
termination_by cs.length

/-- A text without escapes up to its closing quote. -/
def literalText? (cs : List Char) : Option (List Char × List Char) :=
  let (text, rest) := cs.span fun c => isPlain c && c ≠ '\''
  match rest with
  | '\'' :: rest => some (text, rest)
  | _ => none

/-! ### Texts of several lines -/

/-- A text up to three closing quotes. One or two quotes belong to the text,
also in front of the closing ones. Behind a backslash at the end of a line,
all blanks and line ends are left out: then `folding` is set. -/
def multilineBody? (quote : Char) (escapes folding : Bool) (cs : List Char) :
    Option (List Char × List Char) :=
  match cs with
  | [] => none
  | c :: rest =>
    if folding && (isSpace c || c = '\n') then multilineBody? quote escapes true rest
    else if c = quote then
      let quotes := (rest.takeWhile (· = quote)).length + 1
      if quotes < 3 then do
        let (text, rest) ← multilineBody? quote escapes false rest
        return (c :: text, rest)
      else if quotes ≤ 5 then some (List.replicate (quotes - 3) quote, rest.drop (quotes - 1))
      else none
    else if escapes && c = '\\' then
      if (skipSpaces rest).head? = some '\n' then multilineBody? quote escapes true rest
      else do
        let (c, length) ← escape? rest
        let (text, rest) ← multilineBody? quote escapes false (rest.drop length)
        return (c :: text, rest)
    else if isPlain c || c = '\n' then do
      let (text, rest) ← multilineBody? quote escapes false rest
      return (c :: text, rest)
    else none
termination_by cs.length

/-- A text of several lines behind its three opening quotes. A line end right
behind them is left out. -/
def multilineText? (quote : Char) (escapes : Bool) : List Char → Option (List Char × List Char)
  | '\n' :: cs => multilineBody? quote escapes false cs
  | cs => multilineBody? quote escapes false cs

/-! ### Keys -/

/-- The characters of keys without quotes. -/
def isBare (c : Char) : Bool := c.isAlphanum || c = '_' || c = '-'

/-- One name, bare or between quotes. -/
def name? (cs : List Char) : Option (String × List Char) := do
  let (name, rest) ← match cs with
    | '"' :: cs => basicText? cs
    | '\'' :: cs => literalText? cs
    | cs => if cs.head?.any isBare then some (cs.span isBare) else none
  return (String.ofList name, rest)

/-- Names with points between them, as many as `most`, and blanks around
them. -/
def key? (most : Nat) (cs : List Char) : Option (List String × List Char) :=
  match most with
  | 0 => none
  | most + 1 => do
    let (name, rest) ← name? (skipSpaces cs)
    match skipSpaces rest with
    | '.' :: rest =>
      let (names, rest) ← key? most rest
      return (name :: names, rest)
    | rest => return ([name], rest)

end Datapath.Toml
