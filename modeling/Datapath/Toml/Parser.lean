/-
Reading TOML documents.

* `scalar?`, `value?`: values, and what follows them. Lists and inline tables
  nest only so deep.
* `endLine?`, `skipLines`: the end of a line, and what may stand between the
  items of a list.
* `lines?`: the lines of a document.
* `parse?`: a document as a tree; `Reader`: whatever reads documents as trees.
-/
import Datapath.Toml.Moment
import Datapath.Toml.Number
import Datapath.Toml.Tree

namespace Datapath.Toml

open Document (Value)

/-- The greatest depth of lists and inline tables, and the greatest number of
names in a key. -/
def maxDepth : Nat := 79

/-- The characters of values without quotes, dates aside. -/
def inWord (c : Char) : Bool := c.isAlphanum || c = '+' || c = '-' || c = '_' || c = '.'

/-- A truth value or a number. -/
def word? (cs : List Char) : Option Value :=
  if cs = "true".toList then some (.bool true)
  else if cs = "false".toList then some (.bool false)
  else ((integer? cs).map .int).or ((float? cs).map .float)

/-- A value that holds no others. Dates and times are records of one field,
which names no setting. -/
def scalar? (cs : List Char) : Option (Value × List Char) :=
  match cs with
  | '"' :: '"' :: '"' :: cs => (multilineText? '"' true cs).map said
  | '\'' :: '\'' :: '\'' :: cs => (multilineText? '\'' false cs).map said
  | '"' :: cs => (basicText? cs).map said
  | '\'' :: cs => (literalText? cs).map said
  | _ =>
    match moment? cs with
    | some rest =>
      let shown := String.ofList (cs.take (cs.length - rest.length))
      some (.table [("$moment", .text shown)], rest)
    | none => (word? (cs.takeWhile inWord)).map (·, cs.dropWhile inWord)
where
  said (p : List Char × List Char) : Value × List Char := (.text (String.ofList p.1), p.2)

/-- What follows blanks, line ends and comments. -/
def skipLines (comment : Bool) : List Char → List Char
  | [] => []
  | c :: cs =>
    if c = '\n' then skipLines false cs
    else if comment && isPlain c then skipLines true cs
    else if comment then c :: cs
    else if isSpace c then skipLines false cs
    else if c = '#' then skipLines true cs
    else c :: cs

/-- The items of a list up to its closing bracket. A comma may follow the last
one. Each round takes at least one character. -/
def items? (item : List Char → Option (Value × List Char)) :
    (rounds : Nat) → List Char → Option (List Value × List Char)
  | 0, _ => none
  | rounds + 1, cs =>
    match skipLines false cs with
    | ']' :: rest => some ([], rest)
    | cs => do
      let (v, rest) ← item cs
      match skipLines false rest with
      | ',' :: rest =>
        let (vs, rest) ← items? item rounds rest
        return (v :: vs, rest)
      | ']' :: rest => return ([v], rest)
      | _ => none

/-- A key, the sign behind it, and its value. -/
def keyValue? (item : List Char → Option (Value × List Char)) (cs : List Char) :
    Option ((List String × Value) × List Char) := do
  let (path, rest) ← key? maxDepth cs
  let (v, rest) ← item (skipSpaces (← mark? '=' rest))
  return ((path, v), rest)

/-- The pairs of an inline table up to its closing brace, added to those
before them. Each round takes at least one character. -/
def pairs? (item : List Char → Option (Value × List Char)) :
    (rounds : Nat) → Entries → List Char → Option (Entries × List Char)
  | 0, _, _ => none
  | rounds + 1, es, cs => do
    let ((path, v), rest) ← keyValue? item cs
    let es ← setKey path v es
    match skipSpaces rest with
    | ',' :: rest => pairs? item rounds es rest
    | '}' :: rest => return (es, rest)
    | _ => none

/-- A value, with lists and inline tables as deep as `depth` allows. -/
def value? : (depth : Nat) → List Char → Option (Value × List Char)
  | depth + 1, '[' :: cs => do
    let (vs, rest) ← items? (value? depth) (cs.length + 1) cs
    return (.list vs, rest)
  | depth + 1, '{' :: cs => do
    let (es, rest) ← match skipSpaces cs with
      | '}' :: rest => some ([], rest)
      | cs => pairs? (value? depth) (cs.length + 1) [] cs
    return (.table (entryValues es), rest)
  | _, cs => scalar? cs

/-- What follows a line end, with blanks and a comment in front of it. The
document may end instead. -/
def endLine? (cs : List Char) : Option (List Char) :=
  let rest := match skipSpaces cs with
    | '#' :: rest => rest.dropWhile isPlain
    | rest => rest
  match rest with
  | [] => some []
  | '\n' :: rest => some rest
  | _ => none

/-- The document with the lines that follow, the first of which belong to the
table under `header`. Each round takes at least one character. -/
def lines? : (rounds : Nat) → (header : List String) → Entries → List Char → Option Entries
  | 0, _, _, _ => none
  | rounds + 1, header, root, cs =>
    match skipSpaces cs with
    | [] => some root
    | '\n' :: rest => lines? rounds header root rest
    | '#' :: rest => do lines? rounds header root (← endLine? ('#' :: rest))
    | '[' :: '[' :: rest => do
      let (path, rest) ← key? maxDepth rest
      let rest ← endLine? (← mark? ']' (← mark? ']' rest))
      lines? rounds path (← openItem path root) rest
    | '[' :: rest => do
      let (path, rest) ← key? maxDepth rest
      let rest ← endLine? (← mark? ']' rest)
      lines? rounds path (← openTable path root) rest
    | cs => do
      let ((path, v), rest) ← keyValue? (value? maxDepth) cs
      let root ← within false header (fun _ es => setKey path v es) .header root
      lines? rounds header root (← endLine? rest)

/-- A document without the mark of its encoding in front. -/
def withoutMark : List Char → List Char
  | '\uFEFF' :: cs => cs
  | cs => cs

/-- The tree of a document, if it is one. -/
def parse? (document : String) : Option Value := do
  let cs := unixLines (withoutMark document.toList)
  let root ← lines? (cs.length + 1) [] [] cs
  return .table (entryValues root)

/-- What reads documents as trees. -/
class Reader where
  tree? : String → Option Value

/-- Documents are read as above. -/
instance (priority := low) Reader.standard : Reader := ⟨parse?⟩

end Datapath.Toml
