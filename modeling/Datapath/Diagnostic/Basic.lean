/-
Diagnostics about operators.

* `Severity`: how bad a diagnostic is, from help to error.
* `Category`, `Code`: what a diagnostic is about; `Code.text` is the letter
  of the category and a number of at least three digits.
* `Diagnostic`: a message with its severity and code, the operator it is
  about, and footnotes.
* `Diagnostic.ofError`: the error diagnostic of a failed construction.
-/
import Datapath.Error

namespace Datapath

/-- How bad a diagnostic is. -/
inductive Severity where
  | help
  | note
  | warning
  | error
  deriving DecidableEq, Repr, Inhabited

namespace Severity

/-- The place of a severity in the order from help to error. -/
def rank : Severity → Nat
  | help => 0
  | note => 1
  | warning => 2
  | error => 3

/-- Errors stop an operator; the rest does not. -/
def isError (s : Severity) : Bool := s == error

/-- The word for a severity. -/
def text : Severity → String
  | help => "help"
  | note => "note"
  | warning => "warning"
  | error => "error"

/-- The greater of two severities. -/
def worse (s t : Severity) : Severity := if s.rank ≤ t.rank then t else s

end Severity

/-- What a diagnostic is about. -/
inductive Category where
  | warning
  | search
  | timing
  | configuration
  | internal
  deriving DecidableEq, Repr, Inhabited

/-- The letter of a category. -/
def Category.letter : Category → String
  | warning => "W"
  | search => "S"
  | timing => "T"
  | configuration => "C"
  | internal => "I"

/-- The code of a kind of diagnostic. -/
structure Code where
  category : Category
  number : Nat
  deriving DecidableEq, Repr, Inhabited

namespace Code

/-- A letter and a number of at least three digits. -/
def text (c : Code) : String :=
  let digits := toString c.number
  c.category.letter ++ String.ofList (List.replicate (3 - digits.length) '0') ++ digits

/-- An addition was split into chunks of one size. -/
def uniformChunks : Code := ⟨.warning, 101⟩

/-- An output is narrower than one of the inputs. -/
def deepTruncation : Code := ⟨.warning, 102⟩

/-- A signed product too large for one block is built from logic. -/
def signedFallback : Code := ⟨.warning, 103⟩

/-- A tiling search stopped on its budget. -/
def budgetSpent : Code := ⟨.search, 201⟩

/-- An element is too slow for the clock. -/
def tooSlow : Code := ⟨.timing, 301⟩

/-- The parameters are wrong. -/
def badParameters : Code := ⟨.configuration, 401⟩

/-- A construction contradicts itself. -/
def contradiction : Code := ⟨.internal, 501⟩

end Code

/-- A message about an operator under construction. -/
structure Diagnostic where
  severity : Severity
  code : Code
  message : String
  /-- The operator the message is about, if it is known. -/
  operator : Option String
  notes : List String
  help : List String
  deriving DecidableEq, Repr, Inhabited

namespace Diagnostic

/-- A diagnostic without operator and footnotes. -/
def plain (severity : Severity) (code : Code) (message : String) : Diagnostic :=
  { severity, code, message, operator := none, notes := [], help := [] }

/-- The code under which an error is reported. -/
def codeOf : BuildError → Code
  | .configuration _ => .badParameters
  | .timing .. => .tooSlow
  | .invariant _ => .contradiction

/-- The diagnostic of a failed construction. -/
def ofError (e : BuildError) : Diagnostic := plain .error (codeOf e) e.message

/-- The diagnostic with the operator it is about. -/
def inOperator (d : Diagnostic) (name : String) : Diagnostic := { d with operator := some name }

/-- The diagnostic with a further note. -/
def withNote (d : Diagnostic) (note : String) : Diagnostic :=
  { d with notes := d.notes ++ [note] }

/-- The diagnostic with a further suggestion. -/
def withHelp (d : Diagnostic) (help : String) : Diagnostic := { d with help := d.help ++ [help] }

end Diagnostic

end Datapath
