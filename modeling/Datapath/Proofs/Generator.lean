/-
Generators from settings.

* `MultiplierSettings.InRange`: settings in their ranges; `Settings.inRange_of_parse`:
  what is read is.
* `TargetSettings.Means`, `TargetSettings.Refused`: the target that settings mean, or
  what is wrong with them; `Generator.targetOf_cases`: it is one or the other.
* `MultiplierSettings.Means`, `MultiplierSettings.Overlong`: the options that settings
  mean, unless their time is too long; `MultiplierSettings.options?_cases`.
* `generator_of_settings`: whatever is read makes a generator or is refused as a wrong
  configuration, unless its time is too long; `settings_overlong`: it can be.
-/
import Datapath.Generator
import Datapath.Proofs.Floats

namespace Datapath

/-! ### Settings that are read -/

/-- The settings of multipliers in their ranges. -/
structure MultiplierSettings.InRange (m : MultiplierSettings) : Prop where
  zero_le_ratio : 0.0 ≤ m.blockRatio
  ratio_le_one : m.blockRatio ≤ 1.0
  zero_lt_minutes : 0.0 < m.minutes
  zero_lt_chain : 0 < m.maxChain

namespace Settings

variable {document : String} {s : Settings}

/-- What is read has been checked. -/
lemma check_of_parse [Toml.Reader] (h : parse document = .ok s) : s.check = .ok () := by
  rw [parse] at h
  split at h
  case h_1 s' hread =>
    cases hcheck : s'.check with
    | error e =>
      rw [hcheck] at h
      cases h
    | ok =>
      rw [hcheck] at h
      cases h
      exact hcheck
  case h_2 => cases h

/-- What is read is in range. -/
lemma inRange_of_parse [Toml.Reader] (h : parse document = .ok s) : s.multiplier.InRange := by
  have hcheck := check_of_parse h
  rw [check] at hcheck
  split_ifs at hcheck with _ _ hratio htime hchain
  rw [not_or, Bool.not_eq_true] at htime
  exact ⟨hratio.1, hratio.2, float_lt_of_not_le (by decide +kernel) htime.1 htime.2,
    Nat.pos_of_ne_zero hchain⟩

end Settings

/-! ### Targets -/

/-- A frequency that is read can be a clock's. -/
lemma Frequency.valid_of_parse {text : String} {f : Frequency} (h : parse text = .ok f) :
    f.valid = true := by
  unfold parse at h
  dsimp only at h
  split at h
  case h_1 =>
    split_ifs at h with hvalid
    cases h
    exact hvalid
  case h_2 => cases h

namespace TargetSettings

/-- The name of the family in small letters. -/
def familyName (s : TargetSettings) : String := Text.lowerAscii (Text.trimBlanks s.family)

/-- The target is that of the family at the frequency. -/
def Means (s : TargetSettings) (t : Target) : Prop :=
  ∃ frequency family, Frequency.parse s.frequency = .ok frequency ∧
    Family.named? s.familyName = some family ∧
    t = family.model
      { frequency, pipelined := s.pipelined, useHardMultipliers := s.useHardMultipliers }

/-- What can be wrong: the frequency is none, or there is no such family. -/
inductive Refused (s : TargetSettings) : ParameterFault → Prop
  | frequency {e : Frequency.ParseError} (h : Frequency.parse s.frequency = .error e) :
    Refused s (.reported (SettingsError.badFrequency e).message)
  | family (h : Family.named? s.familyName = none) : Refused s (.unknownFamily s.familyName)

end TargetSettings

/-- Settings mean a target, or they are refused. -/
lemma Generator.targetOf_cases (s : TargetSettings) :
    (∃ t, s.Means t ∧ targetOf s = .ok t) ∨
      ∃ fault, s.Refused fault ∧ targetOf s = .error (.configuration fault) := by
  unfold targetOf TargetSettings.resolve
  cases hfrequency : Frequency.parse s.frequency with
  | error e => exact .inr ⟨_, .frequency hfrequency, rfl⟩
  | ok frequency =>
    dsimp only
    rw [Target.load, if_pos (Frequency.valid_of_parse hfrequency)]
    split
    case h_1 family hfamily => exact .inl ⟨_, ⟨frequency, family, hfrequency, hfamily, rfl⟩, rfl⟩
    case h_2 hfamily => exact .inr ⟨_, .family hfamily, rfl⟩

/-! ### Options -/

/-- Only durations of more seconds than 64 bits count are too long. -/
lemma Tiling.nanoseconds?_eq_none {seconds : Float} :
    nanoseconds? seconds = none ↔ 18446744073709551616.0 ≤ seconds := by
  rw [nanoseconds?]
  split_ifs with hpast hlong
  · rw [Bool.or_eq_true, decide_eq_true_eq] at hpast
    refine iff_of_false not_false fun hlong => ?_
    obtain hnan | hneg := hpast
    · exact not_float_le_of_isNaN hnan hlong
    · exact absurd (float_le_trans hlong hneg) (by decide +kernel)
  · exact iff_of_true rfl hlong
  · exact iff_of_false not_false hlong

namespace MultiplierSettings

variable {m : MultiplierSettings}

/-- The options carry all that the settings say. -/
structure Means (m : MultiplierSettings) (options : MultiplierOptions) : Prop where
  ratio : options.blockRatio = m.blockRatio
  backtracking : m.method = .backtracking → options.strategy = .exhaustive
  annealing : m.method = .annealing → options.strategy = .annealing m.seed
  time : Tiling.nanoseconds? (m.minutes * 60.0) = some options.budget.time
  evaluations : options.budget.evaluations = m.evaluations
  chain : options.maxChain = m.maxChain

/-- The time is of more seconds than 64 bits count. -/
def Overlong (m : MultiplierSettings) : Prop := 18446744073709551616.0 ≤ m.minutes * 60.0

/-- Settings mean some options, unless their time is too long. -/
lemma options?_cases (m : MultiplierSettings) :
    (m.Overlong ∧ m.options? = none) ∨
      ¬ m.Overlong ∧ ∃ options, m.Means options ∧ m.options? = some options := by
  rw [options?, Tiling.Budget.minutes?]
  cases htime : Tiling.nanoseconds? (m.minutes * 60.0) with
  | none => exact .inl ⟨Tiling.nanoseconds?_eq_none.mp htime, rfl⟩
  | some time =>
    refine .inr ⟨fun hlong => ?_, _, ⟨rfl, fun h => ?_, fun h => ?_, htime, rfl, rfl⟩, rfl⟩
    · cases htime.symm.trans (Tiling.nanoseconds?_eq_none.mpr hlong)
    · simp only [h]
    · simp only [h]

end MultiplierSettings

/-! ### Generators -/

open Generator in
/-- **Settings that are read make a generator, or they are refused as a wrong
configuration, unless their time is too long.** This is so whatever reads the
document. A generator has the target and the options that the settings mean, and these
are in range. A configuration is refused for its frequency or its family alone. -/
theorem generator_of_settings [Toml.Reader] {document : String} {s : Settings}
    (h : Settings.parse document = .ok s) :
    s.multiplier.InRange ∧
    (∀ g, ofSettings s = .ok g →
      s.target.Means g.target ∧ s.multiplier.Means g.options ∧ g.library = .empty) ∧
    (¬ s.multiplier.Overlong → (∃ g, ofSettings s = .ok g) ∨
      ∃ fault, s.target.Refused fault ∧ ofSettings s = .error (.refused (.configuration fault))) ∧
    (s.multiplier.Overlong → ofSettings s = .error (.timeTooLong s.multiplier.minutes) ∨
      ∃ fault, s.target.Refused fault ∧
        ofSettings s = .error (.refused (.configuration fault))) := by
  refine ⟨Settings.inRange_of_parse h, ?_⟩
  obtain ⟨t, ht, htarget⟩ | ⟨fault, hfault, htarget⟩ := targetOf_cases s.target
  · obtain ⟨hlong, hoptions⟩ | ⟨hlong, options, hmeans, hoptions⟩ := s.multiplier.options?_cases
    · have heq : ofSettings s = .error (.timeTooLong s.multiplier.minutes) := by
        unfold ofSettings
        rw [htarget, hoptions]
      simp only [heq]
      refine ⟨fun g hg => ?_, absurd hlong, fun _ => .inl trivial⟩
      cases hg
    · have heq : ofSettings s = .ok (start t options) := by
        unfold ofSettings
        rw [htarget, hoptions]
      simp only [heq]
      refine ⟨fun g hg => ?_, fun _ => .inl ⟨_, rfl⟩, fun h => absurd h hlong⟩
      cases hg
      exact ⟨ht, hmeans, rfl⟩
  · have heq : ofSettings s = .error (.refused (.configuration fault)) := by
      unfold ofSettings
      rw [htarget]
    have hrefused : ∃ fault, s.target.Refused fault ∧
        ofSettings s = .error (.refused (.configuration fault)) := ⟨fault, hfault, heq⟩
    refine ⟨fun g hg => ?_, fun _ => .inr hrefused, fun _ => .inr hrefused⟩
    cases heq.symm.trans hg

/-- Settings with little time. -/
def Settings.hurried : String :=
  "[target]\nfamily = \"artix7\"\nfrequency = \"250MHz\"\n\n[multiplier]\n" ++
    "strategy = \"annealing\"\nmax_time_in_minutes = 0.25\n"

theorem generator_of_settings_hurried :
    ∃ s, Settings.parse Settings.hurried = .ok s ∧ s.multiplier.InRange ∧
      ∃ g, Generator.ofSettings s = .ok g ∧ s.target.Means g.target ∧
        s.multiplier.Means g.options := by
  have hmade : (match Settings.parse Settings.hurried with
    | .ok s => match Generator.ofSettings s with
      | .ok _ => true
      | .error _ => false
    | .error _ => false) = true := by decide +kernel
  split at hmade
  case h_1 s hs =>
    split at hmade
    case h_1 g hg =>
      obtain ⟨hrange, hmeans, -⟩ := generator_of_settings hs
      exact ⟨s, hs, hrange, g, hg, (hmeans g hg).1, (hmeans g hg).2.1⟩
    case h_2 => cases hmade
  case h_2 => cases hmade

/-- Settings without a limit of time. -/
def Settings.unlimited : String :=
  "[target]\nfamily = \"artix7\"\nfrequency = \"250MHz\"\n\n[multiplier]\n" ++
    "max_time_in_minutes = inf\n"

/-- Time without a limit is too long. -/
theorem settings_overlong :
    ∃ s minutes, Settings.parse Settings.unlimited = .ok s ∧
      Generator.ofSettings s = .error (.timeTooLong minutes) := by
  have hread : (match Settings.parse Settings.unlimited with
    | .ok s => match Generator.ofSettings s with
      | .error (.timeTooLong _) => true
      | _ => false
    | .error _ => false) = true := by decide +kernel
  split at hread
  case h_1 s hs =>
    split at hread
    case h_1 minutes hlong => exact ⟨s, minutes, hs, hlong⟩
    case h_2 => cases hread
  case h_2 => cases hread

end Datapath
