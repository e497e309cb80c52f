/-
Clock frequencies.

* `Frequency`: a frequency in Hertz, with its period and its value in
  megahertz.
* `Frequency.valid`: finite and above zero.
* `Frequency.text`: the frequency in the largest unit that keeps it at one
  or above.
* `Frequency.parse`: a number with an optional unit; anything else, and any
  frequency that is not valid, is refused with the text that was read.
-/
import Datapath.Decimal.Layout
import Datapath.Decimal.Read
import Datapath.Text.Ranges

namespace Datapath

/-- A clock frequency in Hertz. -/
structure Frequency where
  hz : Float

namespace Frequency

/-- The frequency of `mhz` megahertz. -/
def ofMHz (mhz : Float) : Frequency := ⟨mhz * 1000000.0⟩

/-- The frequency whose period is `seconds`. -/
def ofPeriod (seconds : Float) : Frequency := ⟨1.0 / seconds⟩

/-- The frequency in megahertz. -/
def mhz (f : Frequency) : Float := f.hz / 1000000.0

/-- The clock period in seconds. -/
def period (f : Frequency) : Float := 1.0 / f.hz

/-- A clock can run at finite frequencies above zero only. -/
def valid (f : Frequency) : Bool := f.hz.isFinite && f.hz > 0.0

/-- The frequency with its unit. -/
def text (f : Frequency) : String :=
  if f.hz ≥ 1000000000.0 then Decimal.plain (f.hz / 1000000000.0) ++ "GHz"
  else if f.hz ≥ 1000000.0 then Decimal.plain (f.hz / 1000000.0) ++ "MHz"
  else if f.hz ≥ 1000.0 then Decimal.plain (f.hz / 1000.0) ++ "KHz"
  else Decimal.plain f.hz ++ "Hz"

/-- The frequency as it is shown inside a record. -/
def shown (f : Frequency) : String := "Frequency(" ++ f.text ++ ")"

/-- The units, with their sizes in Hertz. A longer unit comes before one
that it ends in. -/
def units : List (String × Float) :=
  [("ghz", 1000000000.0), ("mhz", 1000000.0), ("khz", 1000.0), ("hz", 1.0)]

/-- The number part of a text and the size of its unit, Hertz if it has
none. -/
def splitUnit (s : String) : String × Float :=
  match units.find? fun u => s.endsWith u.1 with
  | some (unit, size) => (String.ofList (s.toList.take (s.length - unit.length)), size)
  | none => (s, 1.0)

/-- A text that is no frequency. -/
structure ParseError where
  input : String

/-- The wording of a refused frequency. -/
def ParseError.message (e : ParseError) : String := "invalid frequency: '" ++ e.input ++ "'"

/-- A number of Hertz, or of the unit that follows it. Capitals and small
letters are the same, and blanks may surround the number. -/
def parse (s : String) : Except ParseError Frequency :=
  let trimmed := Text.trimBlanks s
  let (number, size) := splitUnit (Text.lowerAscii trimmed)
  match Decimal.readDouble? (Text.trimBlanks number) with
  | some x =>
    let f : Frequency := ⟨x * size⟩
    if f.valid then .ok f else .error ⟨trimmed⟩
  | none => .error ⟨trimmed⟩

end Frequency

end Datapath
