/-
Diagnostics in documents.

* `Severity.codec`, `Category.codec`: the names of severities and categories.
* `Diagnostic.codec`: a diagnostic with its code and its footnotes.
-/
import Datapath.Diagnostic.Basic
import Datapath.Document.Codec

namespace Datapath

open Document

/-- Severities by name. -/
def Severity.codec : Codec Severity :=
  words [("Help", .help), ("Note", .note), ("Warning", .warning), ("Error", .error)]

/-- Categories by name. -/
def Category.codec : Codec Category :=
  words [("Warning", .warning), ("Search", .search), ("Timing", .timing),
    ("Configuration", .configuration), ("Internal", .internal)]

/-- Codes with numbers of 16 bits. -/
def Code.codec : Codec Code := record <| Code.mk
  <$> field "category" Category.codec (·.category)
  <*> field "number" (natural 16) (·.number)

/-- Diagnostics. -/
def Diagnostic.codec : Codec Diagnostic := record <| Diagnostic.mk
  <$> field "severity" Severity.codec (·.severity)
  <*> field "code" Code.codec (·.code)
  <*> field "message" string (·.message)
  <*> field "operator" (optional string) (·.operator)
  <*> field "notes" (listOf string) (·.notes)
  <*> field "help" (listOf string) (·.help)

end Datapath
