/-
Clocks and target options in documents.

* `Frequency.codec`: a frequency as its number of Hertz.
* `TargetOptions.codec`: the clock and what the designer allows.
-/
import Datapath.Document.Codec
import Datapath.Target.Basic

namespace Datapath

open Document

/-- Frequencies in Hertz. -/
def Frequency.codec : Codec Frequency := float.imap Frequency.mk Frequency.hz

/-- The clock and what the designer allows. -/
def TargetOptions.codec : Codec TargetOptions := record <| TargetOptions.mk
  <$> field "frequency" Frequency.codec (·.frequency)
  <*> field "pipelined" boolean (·.pipelined)
  <*> field "use_hard_multipliers" boolean (·.useHardMultipliers)

end Datapath
