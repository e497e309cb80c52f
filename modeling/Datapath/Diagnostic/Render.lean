/-
Diagnostics as text for a terminal.

* `Diagnostic.header`: severity and code, coloured on demand.
* `Diagnostic.render`: header and message on one line, and one line each for
  the operator and the footnotes.
* `Log.render`: all diagnostics that a log holds, one below the other.
-/
import Datapath.Diagnostic.Log

namespace Datapath

/-- The number of the colour that goes with a severity. -/
def Severity.colour : Severity → String
  | .error => "31"
  | .warning => "33"
  | .note | .help => "36"

namespace Diagnostic

/-- Severity and code, between the marks that switch the colour on and off
if `coloured`. -/
def header (d : Diagnostic) (coloured : Bool) : String :=
  let head := d.severity.text ++ "[" ++ d.code.text ++ "]"
  if coloured then "\x1b[1;" ++ d.severity.colour ++ "m" ++ head ++ "\x1b[0m" else head

/-- The lines of a diagnostic, each with its end. -/
def render (d : Diagnostic) (coloured : Bool) : String :=
  let operator := match d.operator with
    | some name => ["  --> in " ++ name ++ "\n"]
    | none => []
  String.join
    ([d.header coloured ++ ": " ++ d.message ++ "\n"] ++ operator ++
      d.notes.map (fun note => "   = note: " ++ note ++ "\n") ++
      d.help.map (fun help => "   = help: " ++ help ++ "\n"))

end Diagnostic

/-- All diagnostics held, one below the other. -/
def Log.render (log : Log) (coloured : Bool) : String :=
  String.join (log.held.toList.map fun d => d.render coloured)

end Datapath
