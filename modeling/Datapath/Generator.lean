/-
Generators of operators.

* `Generator`: a target, the multiplier options, and the library of all that
  was built so far.
* `Generator.ofSettings`: the generator that settings ask for.
* `Generating`: steps of a generator. One that fails leaves a diagnostic in
  the library and nothing else.
* `Generator.adder`, `Generator.multiplier`, `Generator.shifter`: the
  operators that it builds.
* `Generator.report`: the diagnostics as text.
-/
import Datapath.Adder.Long
import Datapath.Diagnostic.Render
import Datapath.Library
import Datapath.Multiplier.Basic
import Datapath.Settings
import Datapath.Shifter
import Datapath.Target.Families

namespace Datapath

/-- A target, options and what was built so far. -/
structure Generator where
  target : Target
  options : MultiplierOptions
  library : Library

/-- Steps of a generator. -/
abbrev Generating := EStateM BuildError Generator

/-- Why there is no generator for some settings. -/
inductive GeneratorError where
  /-- The settings or the target are wrong. -/
  | refused (e : BuildError)
  /-- The time for a search is too long to be measured. -/
  | timeTooLong (minutes : Float)

namespace Generator

/-- A generator that has not built anything. -/
def start (target : Target) (options : MultiplierOptions) : Generator :=
  { target, options, library := .empty }

/-- The target that settings mean. -/
def targetOf (s : TargetSettings) : Except BuildError Target :=
  match s.resolve with
  | .ok (family, options) => Target.load family options
  | .error e => .error (.configuration (.reported e.message))

/-- The generator that settings ask for. -/
def ofSettings (s : Settings) : Except GeneratorError Generator :=
  match targetOf s.target, s.multiplier.options? with
  | .error e, _ => .error (.refused e)
  | .ok _, none => .error (.timeTooLong s.multiplier.minutes)
  | .ok target, some options => .ok (start target options)

/-- Registers an operator, or logs that it could not be built. -/
def register {α : Type} (operator : String) (built : Except BuildError (α × BuiltOperator)) :
    Generating α := fun g =>
  match built with
  | .ok (a, built) => .ok a { g with library := (g.library.register built).2 }
  | .error e => .error e { g with library := g.library.reportFailure operator e }

/-- Builds an adder. -/
def adder (width : Nat) : Generating LongAdder := do
  register s!"LongIntAdder_{width}" (LongAdder.build (← get).target width)

/-- Builds a multiplier. -/
def multiplier [Tiling.Surroundings] (wx wy wOut : Nat) (signed : Bool) :
    Generating Multiplier := do
  let g ← get
  register s!"IntMultiplier_{wx}_{wy}_{wOut}"
    (Multiplier.build g.target wx wy wOut signed g.options)

/-- Builds a shifter. -/
def shifter (wIn maxShift : Nat) (direction : ShiftDirection) : Generating Shifter := do
  register ({ wIn, maxShift, direction } : Shifter).name
    (Shifter.build (← get).target wIn maxShift direction)

/-- All diagnostics as text, one below the other. -/
def report (g : Generator) (coloured : Bool) : String := g.library.log.render coloured

end Generator

end Datapath
