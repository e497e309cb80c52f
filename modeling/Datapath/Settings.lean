/-
The settings of a generator.

* `Settings`: the target section, as it is written, and the multiplier
  section. Only the family and the frequency have to be given.
* `Settings.parse`, `Settings.ofFile`: settings from a document or from the
  bytes of a file. `Settings.check` refuses values out of range.
* `TargetSettings.resolve`: the family and the options that the target section
  means.
* `MultiplierSettings.options?`: what the multiplier section asks for.
* `SettingsError`: why settings are refused.
-/
import Datapath.Document.Codec
import Datapath.Multiplier.Architecture
import Datapath.Toml.Parser

namespace Datapath

/-- The target section. -/
structure TargetSettings where
  family : String
  frequency : String
  /-- Registers may be inserted. -/
  pipelined : Bool
  /-- Hard multiplier blocks may be used. -/
  useHardMultipliers : Bool
  deriving DecidableEq, Repr, Inhabited

/-- How tilings are looked for. -/
inductive SearchMethod where
  | backtracking
  | annealing
  deriving DecidableEq, Repr, Inhabited

/-- The multiplier section. -/
structure MultiplierSettings where
  /-- The preference for blocks over logic, from zero to one. -/
  blockRatio : Float
  method : SearchMethod
  /-- The time for one search, in minutes. -/
  minutes : Float
  /-- The number of arrangements that one search may evaluate. -/
  evaluations : Option Nat
  /-- Where the random numbers of annealing begin. -/
  seed : UInt64
  /-- The length of the longest cascade. -/
  maxChain : Nat
  deriving Inhabited

/-- The settings of a section that is left out. -/
def MultiplierSettings.standard : MultiplierSettings where
  blockRatio := 1.0
  method := .backtracking
  minutes := 1.0
  evaluations := none
  seed := 1
  maxChain := 2

/-- The settings of a generator. -/
structure Settings where
  target : TargetSettings
  multiplier : MultiplierSettings
  deriving Inhabited

/-! ### Documents -/

section

open Document

/-- The target section of a document. -/
def TargetSettings.codec : Codec TargetSettings := record <| TargetSettings.mk
  <$> field "family" string (·.family)
  <*> field "frequency" string (·.frequency)
  <*> fieldOr (some true) "pipelined" boolean (·.pipelined)
  <*> fieldOr (some true) "use_hard_multipliers" boolean (·.useHardMultipliers)

/-- The names of the methods. -/
def SearchMethod.codec : Codec SearchMethod :=
  words [("backtracking", .backtracking), ("annealing", .annealing)]

/-- The multiplier section of a document. -/
def MultiplierSettings.codec : Codec MultiplierSettings := record <| MultiplierSettings.mk
  <$> fieldOr (some standard.blockRatio) "dsp_ratio" float (·.blockRatio)
  <*> fieldOr (some standard.method) "strategy" SearchMethod.codec (·.method)
  <*> fieldOr (some standard.minutes) "max_time_in_minutes" float (·.minutes)
  <*> fieldOr (some standard.evaluations) "max_evaluations" (optional (natural 64)) (·.evaluations)
  <*> fieldOr (some standard.seed) "seed" Document.seed (·.seed)
  <*> fieldOr (some standard.maxChain) "max_chain_length" (natural 64) (·.maxChain)

/-- The settings of a document. -/
def Settings.codec : Codec Settings := record <| Settings.mk
  <$> field "target" TargetSettings.codec (·.target)
  <*> fieldOr (some .standard) "multiplier" MultiplierSettings.codec (·.multiplier)

end

/-! ### Errors -/

/-- Why settings are refused. -/
inductive SettingsError where
  /-- There is no file of text. -/
  | unreadable
  /-- The text is no document with settings. -/
  | malformed
  /-- A field is blank. -/
  | missing (field : String)
  | ratioOutOfRange (ratio : Float)
  | timeNotPositive (minutes : Float)
  | emptyChain
  | badFrequency (e : Frequency.ParseError)

/-- The wording of an error. -/
def SettingsError.message : SettingsError → String
  | unreadable => "failed to read configuration"
  | malformed => "failed to parse configuration"
  | missing field => "missing required field: " ++ field
  | ratioOutOfRange x =>
    invalid ++ "multiplier.dsp_ratio must be in [0, 1], got " ++ Decimal.plain x
  | timeNotPositive x =>
    invalid ++ "multiplier.max_time_in_minutes must be positive, got " ++ Decimal.plain x
  | emptyChain => invalid ++ "multiplier.max_chain_length must be at least 1"
  | badFrequency e => invalid ++ "target.frequency: " ++ e.message
where
  invalid : String := "validation error: "

/-! ### Reading -/

namespace Settings

/-- Refuses blank fields and values out of range. Of several faults the first
in the order of the sections counts. -/
def check (s : Settings) : Except SettingsError Unit :=
  let m := s.multiplier
  if Text.isVacant s.target.family then .error (.missing "target.family")
  else if Text.isVacant s.target.frequency then .error (.missing "target.frequency")
  else if ¬(0.0 ≤ m.blockRatio ∧ m.blockRatio ≤ 1.0) then .error (.ratioOutOfRange m.blockRatio)
  else if m.minutes.isNaN ∨ m.minutes ≤ 0.0 then .error (.timeNotPositive m.minutes)
  else if m.maxChain = 0 then .error .emptyChain
  else .ok ()

/-- The settings of a document. -/
def parse [Toml.Reader] (document : String) : Except SettingsError Settings :=
  match (Toml.Reader.tree? document).bind (codec.read? .toml) with
  | some s => s.check.map fun _ => s
  | none => .error .malformed

/-- The settings in the bytes of a file, if there is one. -/
def ofFile [Toml.Reader] (bytes : Option ByteArray) : Except SettingsError Settings :=
  match bytes.bind String.fromUTF8? with
  | some document => parse document
  | none => .error .unreadable

end Settings

/-! ### Meaning -/

/-- The family in small letters and the options that the target section
means. -/
def TargetSettings.resolve (s : TargetSettings) : Except SettingsError (String × TargetOptions) :=
  match Frequency.parse s.frequency with
  | .ok frequency =>
    .ok (Text.lowerAscii (Text.trimBlanks s.family),
      { frequency, pipelined := s.pipelined, useHardMultipliers := s.useHardMultipliers })
  | .error e => .error (.badFrequency e)

/-- What the multiplier section asks for, unless its time is too long to be
measured. -/
def MultiplierSettings.options? (s : MultiplierSettings) : Option MultiplierOptions :=
  (Tiling.Budget.minutes? s.minutes).map fun budget =>
    { blockRatio := s.blockRatio
      strategy := match s.method with
        | .backtracking => .exhaustive
        | .annealing => .annealing s.seed
      budget := { budget with evaluations := s.evaluations }
      maxChain := s.maxChain }

end Datapath
