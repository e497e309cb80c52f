/-
The diagnostics of a run.

* `Log`: the diagnostics held, in order of arrival, and the number of errors
  that ever arrived.
* `Log.emit`, `Log.extend`, `Log.drain`: adding and taking away. Draining
  empties the log and keeps the count of errors.
* `Log.worst`: the greatest severity held.
-/
import Datapath.Diagnostic.Basic

namespace Datapath

/-- The diagnostics of a run. -/
structure Log where
  /-- What is held, in order of arrival. -/
  held : Array Diagnostic
  /-- The number of errors that ever arrived. -/
  errors : Nat
  deriving Inhabited

namespace Log

/-- The log of a run that has not begun. -/
def empty : Log := ⟨#[], 0⟩

/-- The log after one more diagnostic. -/
def emit (log : Log) (d : Diagnostic) : Log :=
  { held := log.held.push d
    errors := if d.severity.isError then log.errors + 1 else log.errors }

/-- The log after some more diagnostics. -/
def extend (log : Log) (ds : List Diagnostic) : Log := ds.foldl emit log

/-- Whether an error ever arrived. -/
def hasErrors (log : Log) : Bool := 0 < log.errors

/-- What the log holds, and the log without it. -/
def drain (log : Log) : Array Diagnostic × Log := (log.held, { log with held := #[] })

/-- The greatest severity held. -/
def worst (log : Log) : Option Severity :=
  log.held.toList.foldl
    (fun best d => some (match best with
      | some s => s.worse d.severity
      | none => d.severity)) none

/-- The log in a word. -/
def shown (log : Log) : String :=
  s!"DiagnosticSink \x7b diagnostics: {log.held.size}, errors: {log.errors} \x7d"

theorem held_emit (log : Log) (d : Diagnostic) : (log.emit d).held = log.held.push d := rfl

end Log

end Datapath
