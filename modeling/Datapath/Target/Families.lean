/-
The device families by name.

* `Family`: the families there are, and their spellings.
* `Target.load`: the model of a family under given options. The clock is
  checked first, then the name.
-/
import Datapath.Target.StratixV
import Datapath.Target.Artix7

namespace Datapath

/-- The device families with a model. -/
inductive Family where
  | stratixV
  | artix7
  deriving DecidableEq, Repr

/-- The spellings of a family in small letters. -/
def Family.spellings : Family → List String
  | stratixV => ["stratix_v", "stratixv", "stratix-v", "stratix5"]
  | artix7 => ["artix7", "artix-7", "artix_7", "xc7a"]

/-- The family with this name, whatever its capitals and the blanks around
it. -/
def Family.named? (name : String) : Option Family :=
  let key := Text.lowerAscii (Text.trimBlanks name)
  [stratixV, artix7].find? fun f => f.spellings.contains key

/-- The model of a family. -/
def Family.model : Family → TargetOptions → Target
  | stratixV => StratixV.model
  | artix7 => Artix7.model

/-- The model of the family with this name under the given options. -/
def Target.load (name : String) (options : TargetOptions) : Except BuildError Target :=
  if options.frequency.valid then
    match Family.named? name with
    | some family => .ok (family.model options)
    | none => .error (.configuration (.unknownFamily name))
  else .error (.configuration (.frequencyNotPositive options.frequency))

end Datapath
