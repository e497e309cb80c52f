/-
The values of barrel shifters.

* `Shifter.rise`: how far the first levels shift up altogether. To the left that
  is what the low bits of the amount say, and to the right what they leave of
  the largest amount of so many bits.
* `rise_succ`, `runLevels_eq`: one level and, level by level, all of them: the
  input is multiplied by a power of two.
* `runLevels_lt`: the value behind a level fits the width of the level.
* `evaluate_eq_emulate`: the levels compute the shift, for every amount.
* `buildLevels_declares`: the levels are signals of the width that their values
  need.
* `shifts_of_build`: all of it about the shifters that can be built, and
  `shifts_of_build_right`, one to the right beyond its largest shift.
-/
import Datapath.Proofs.Words
import Datapath.Proofs.Construction.Stream
import Datapath.Proofs.Construction.Alignment

namespace Datapath

namespace Shifter

variable {s : Shifter} {l n v : ℕ}

/-! ### Widths -/

lemma levelWidth_eq (s : Shifter) (n : ℕ) : s.levelWidth n = s.wIn + (2 ^ n - 1) := by
  have hpos := Nat.two_pow_pos n
  rw [levelWidth, Nat.one_shiftLeft]
  omega

/-- The largest shift has as many bits as there are levels. -/
lemma maxShift_lt (s : Shifter) : s.maxShift < 2 ^ s.wShift := lt_two_pow_bitLength _

/-- The output is cut out of the last level. -/
lemma wOut_le (s : Shifter) : s.wOut ≤ s.levelWidth s.wShift := by
  have hmax := s.maxShift_lt
  rw [levelWidth_eq, wOut]
  omega

/-- Levels grow. -/
lemma levelWidth_mono (s : Shifter) (h : l ≤ n) : s.levelWidth l ≤ s.levelWidth n := by
  have hpow := Nat.pow_le_pow_right Nat.two_pos h
  rw [levelWidth_eq, levelWidth_eq]
  omega

/-! ### The levels -/

/-- How far the first `n` levels shift up altogether. -/
def rise (s : Shifter) (amount n : ℕ) : ℕ :=
  match s.direction with
  | .left => amount % 2 ^ n
  | .right => 2 ^ n - 1 - amount % 2 ^ n

lemma rise_zero (s : Shifter) (amount : ℕ) : s.rise amount 0 = 0 := by
  rw [rise]
  split <;> simp [Nat.mod_one]

lemma rise_lt (s : Shifter) (amount n : ℕ) : s.rise amount n < 2 ^ n := by
  have hmod := Nat.mod_lt amount (Nat.two_pow_pos n)
  rw [rise]
  split <;> omega

/-- A level adds its own shift if it moves. -/
lemma rise_succ (s : Shifter) (amount n : ℕ) :
    s.rise amount (n + 1) = s.rise amount n + if s.moves amount n then 2 ^ n else 0 := by
  have hmod := Nat.mod_lt amount (Nat.two_pow_pos n)
  have htwo : 2 ^ (n + 1) = 2 * 2 ^ n := pow_succ' 2 n
  cases hdirection : s.direction <;>
    simp only [rise, moves, hdirection, bitAt_eq, mod_two_pow_succ] <;>
    rcases Nat.mod_two_eq_zero_or_one (amount / 2 ^ n) with hbit | hbit <;>
    simp [hbit] <;> omega

/-- The last level comes behind the others. -/
lemma runLevels_succ (s : Shifter) (amount l v n : ℕ) :
    s.runLevels amount l v (n + 1) =
      let w := s.runLevels amount l v n
      if s.moves amount (l + n) then w <<< (1 <<< (l + n)) else w := by
  induction n generalizing l v with
  | zero => rfl
  | succ n ih =>
    rw [runLevels, ih, runLevels, Nat.add_right_comm l 1 n, Nat.add_assoc]

/-- All levels together multiply by a power of two. -/
lemma runLevels_eq (s : Shifter) (amount v n : ℕ) :
    s.runLevels amount 0 v n = v * 2 ^ s.rise amount n := by
  induction n with
  | zero => rw [runLevels, rise_zero, pow_zero, Nat.mul_one]
  | succ n ih =>
    rw [runLevels_succ, ih, rise_succ, Nat.zero_add]
    split_ifs
    · rw [Nat.shiftLeft_eq, Nat.one_shiftLeft, pow_add, Nat.mul_assoc]
    · rw [Nat.add_zero]

/-- The value behind a level fits its width. -/
lemma runLevels_lt (hv : v < 2 ^ s.wIn) (amount n : ℕ) :
    s.runLevels amount 0 v n < 2 ^ s.levelWidth n := by
  have hrise : s.rise amount n ≤ 2 ^ n - 1 := Nat.le_sub_one_of_lt (s.rise_lt amount n)
  calc s.runLevels amount 0 v n = v * 2 ^ s.rise amount n := s.runLevels_eq amount v n
    _ ≤ v * 2 ^ (2 ^ n - 1) := Nat.mul_le_mul_left _ (Nat.pow_le_pow_right Nat.two_pos hrise)
    _ < 2 ^ s.wIn * 2 ^ (2 ^ n - 1) := Nat.mul_lt_mul_of_pos_right hv (Nat.two_pow_pos _)
    _ = 2 ^ s.levelWidth n := by rw [levelWidth_eq, pow_add]

/-! ### The output -/

/-- What the levels to the right make room for and the output drops again is a
shift by the amount. -/
lemma runLevels_shiftRight (hright : s.direction = .right) (amount v : ℕ) :
    s.runLevels amount 0 v s.wShift >>> (s.levelWidth s.wShift - s.wOut) =
      if amount % 2 ^ s.wShift ≤ s.maxShift then v <<< (s.maxShift - amount % 2 ^ s.wShift)
      else v >>> (amount % 2 ^ s.wShift - s.maxShift) := by
  have hmod := Nat.mod_lt amount (Nat.two_pow_pos s.wShift)
  have hmax := s.maxShift_lt
  rw [runLevels_eq, rise, hright, levelWidth_eq, wOut, Nat.shiftRight_eq_div_pow]
  dsimp only
  generalize amount % 2 ^ s.wShift = low at *
  generalize 2 ^ s.wShift = top at *
  split_ifs with hlow
  · have hsplit : top - 1 - low =
        s.maxShift - low + (s.wIn + (top - 1) - (s.wIn + s.maxShift)) := by
      omega
    rw [hsplit, pow_add, ← Nat.mul_assoc, Nat.mul_div_cancel _ (Nat.two_pow_pos _),
      Nat.shiftLeft_eq]
  · have hsplit : s.wIn + (top - 1) - (s.wIn + s.maxShift) =
        low - s.maxShift + (top - 1 - low) := by
      omega
    rw [hsplit, pow_add, Nat.mul_div_mul_right _ _ (Nat.two_pow_pos _),
      Nat.shiftRight_eq_div_pow]

/-- The levels compute the shift: whatever the input and the amount, the output
is the one expected, and fits. -/
lemma evaluate_eq_emulate (hfits : s.levelWidth s.wShift ≤ wordBits) (x amount : ℕ) :
    ∃ r, s.evaluate x amount = .ok r ∧ s.emulate x amount = .ok r ∧ r < 2 ^ s.wOut := by
  have hwidth : s.checkWidth = .ok () := if_neg (Nat.not_lt.mpr hfits)
  cases hdirection : s.direction with
  | left =>
    refine ⟨truncateTo s.wOut (s.runLevels amount 0 (truncateTo s.wIn x) s.wShift), ?_, ?_, ?_⟩
    · rw [evaluate, hwidth, hdirection]
      rfl
    · rw [emulate, hwidth, runLevels_eq, rise, hdirection, Nat.one_shiftLeft, ← Nat.shiftLeft_eq]
      rfl
    · exact truncateTo_lt_two_pow _ _
  | right =>
    refine ⟨s.runLevels amount 0 (truncateTo s.wIn x) s.wShift >>>
      (s.levelWidth s.wShift - s.wOut), ?_, ?_, ?_⟩
    · rw [evaluate, hwidth, hdirection]
      rfl
    · rw [emulate, hwidth, hdirection, runLevels_shiftRight hdirection, Nat.one_shiftLeft]
      split_ifs with hlow
      · exact if_pos hlow
      · exact if_neg hlow
    · have hlast := runLevels_lt (truncateTo_lt_two_pow s.wIn x) amount s.wShift
      rw [Nat.shiftRight_eq_div_pow]
      apply Nat.div_lt_of_lt_mul
      rwa [← pow_add, Nat.sub_add_cancel s.wOut_le]

end Shifter

/-! ### The signals of the levels -/

/-- There is a signal of this name and width. -/
def Builder.HasSignal (b : Builder) (name : String) (width : ℕ) : Prop :=
  ∃ id g, b.schedule.signal? id = some g ∧ g.name = name ∧ g.width = width

variable {t : Target} {b b' : Builder} {name : String} {width : ℕ} {id : SignalId}

/-- Signals stay. -/
lemma Builder.HasSignal.mono (h : b.HasSignal name width) (hle : b ≤ b') :
    b'.HasSignal name width := by
  obtain ⟨id, g, hg, hname, hwidth⟩ := h
  obtain ⟨g', hg', hage⟩ := hle id g hg
  exact ⟨id, g', hg', hage.name.trans hname, hage.width.trans hwidth⟩

/-- In the finished operator they are still there. -/
lemma Builder.HasSignal.finish (h : b.HasSignal name width) :
    ∃ g ∈ b.finish.component.signals, g.name = name ∧ g.width = width := by
  obtain ⟨id, g, hg, hname, hwidth⟩ := h
  exact ⟨g, Array.mem_of_getElem? hg, hname, hwidth⟩

/-- What is declared is there. -/
lemma Build.hasSignal_of_declare (h : declare name width b = .ok id b') :
    b'.HasSignal name width := by
  obtain ⟨id', b₁, hschedule, h⟩ := bind_eq_ok.mp h
  obtain ⟨_, b₂, hrecord, h⟩ := bind_eq_ok.mp h
  obtain ⟨-, rfl⟩ := pure_eq_ok.mp h
  obtain ⟨s, hdeclare, rfl⟩ := schedule_eq_ok.mp hschedule
  obtain rfl := modify_eq_ok.mp hrecord
  obtain ⟨now, s₁, hget, hdeclare⟩ := bind_eq_ok.mp hdeclare
  obtain ⟨rfl, rfl⟩ := get_eq_ok.mp hget
  obtain ⟨-, rfl⟩ := Schedule.eq_of_declareAt hdeclare
  exact ⟨_, _, Arena.get?_alloc_self _ _, rfl, rfl⟩

namespace Shifter

variable {s : Shifter} {amount level last : SignalId} {l count : ℕ}

/-- Every level that is built is a signal of its width. -/
lemma buildLevels_declares (h : s.buildLevels t amount l level count b = .ok last b') :
    ∀ k, l ≤ k → k < l + count →
      b'.HasSignal s!"level{k + 1}" (s.levelWidth (k + 1)) := by
  induction count generalizing l level b with
  | zero => omega
  | succ count ih =>
    obtain ⟨_, b₁, -, h⟩ := bind_eq_ok.mp h
    obtain ⟨_, b₂, -, h⟩ := bind_eq_ok.mp h
    obtain ⟨_, b₃, -, h⟩ := bind_eq_ok.mp h
    obtain ⟨next, b₄, hdeclare, h⟩ := bind_eq_ok.mp h
    intro k hle hlt
    rcases hle.eq_or_lt with rfl | hless
    · have hrun : Leads (Builder.Run fun _ => False) (s.buildLevels t amount (l + 1) next count) :=
        buildLevels_run
      exact (Build.hasSignal_of_declare hdeclare).mono (hrun h).later
    · exact ih h k hless (by omega)

/-- So are the levels of a shifter. -/
lemma steps_declare (h : s.steps t b = .ok () b') :
    ∀ k < s.wShift, b'.HasSignal s!"level{k + 1}" (s.levelWidth (k + 1)) := by
  obtain ⟨_, b₁, -, h⟩ := bind_eq_ok.mp h
  obtain ⟨_, b₂, -, h⟩ := bind_eq_ok.mp h
  obtain ⟨_, b₃, -, h⟩ := bind_eq_ok.mp h
  obtain ⟨_, b₄, -, h⟩ := bind_eq_ok.mp h
  obtain ⟨_, b₅, -, h⟩ := bind_eq_ok.mp h
  obtain ⟨_, b₆, -, h⟩ := bind_eq_ok.mp h
  obtain ⟨_, b₇, hlevels, h⟩ := bind_eq_ok.mp h
  obtain ⟨_, b₈, houtput, h⟩ := bind_eq_ok.mp h
  obtain ⟨-, rfl⟩ := pure_eq_ok.mp h
  intro k hk
  have hdeclared := buildLevels_declares hlevels k (Nat.zero_le _) (by omega)
  exact hdeclared.mono (Build.addOutput_rising _ _ _ houtput)

/-- **Shifters shift.** Take a shifter of either direction whose last level fits
a word, an input and an amount, also one beyond the largest shift or wider than
the port for it. The levels put out what is expected, which fits the output. The
value behind every level fits the width that is declared for the level, and so
no bit is lost on the way. -/
theorem shifts_of_build {t : Target} {wIn maxShift : ℕ} {direction : ShiftDirection} {s : Shifter}
    {built : BuiltOperator} (h : build t wIn maxShift direction = .ok (s, built))
    (hfits : s.levelWidth s.wShift ≤ wordBits) (x amount : ℕ) :
    (∃ r, s.evaluate x amount = .ok r ∧ s.emulate x amount = .ok r ∧ r < 2 ^ s.wOut) ∧
    ∀ l < s.wShift,
      s.runLevels amount 0 (truncateTo s.wIn x) (l + 1) < 2 ^ (s.wIn + 2 ^ (l + 1) - 1) ∧
      s.wIn + 2 ^ (l + 1) - 1 ≤ wordBits ∧
      ∃ g ∈ built.component.signals,
        g.name = s!"level{l + 1}" ∧ g.width = s.wIn + 2 ^ (l + 1) - 1 := by
  refine ⟨evaluate_eq_emulate hfits x amount, fun l hl => ?_⟩
  rw [← Nat.one_shiftLeft (l + 1)]
  change _ < 2 ^ s.levelWidth (l + 1) ∧ s.levelWidth (l + 1) ≤ wordBits ∧
    ∃ g ∈ built.component.signals, g.name = s!"level{l + 1}" ∧ g.width = s.levelWidth (l + 1)
  refine ⟨runLevels_lt (truncateTo_lt_two_pow _ _) amount (l + 1),
    (s.levelWidth_mono hl).trans hfits, ?_⟩
  rw [build] at h
  dsimp only at h
  split_ifs at h
  obtain ⟨⟨_, operator⟩, hconstruct, hpure⟩ := except_bind_eq_ok.mp h
  cases hpure
  obtain ⟨b, hsteps, rfl⟩ := construct_eq_ok hconstruct
  exact (steps_declare hsteps l hl).finish

open Runs in
/-- A shifter to the right whose port for the amount has room for more than its
largest shift. -/
lemma build_right :
    ∃ built, build unclocked 2 2 .right = .ok (⟨2, 2, .right⟩, built) := by
  have hpipelined : unclocked.pipelined = false := rfl
  have hone : Nat.repr 1 = "1" := rfl
  have htwo : Nat.repr 2 = "2" := rfl
  have hlog : Nat.log2 2 = 1 := by decide
  simp [build, steps, buildLevels, wShift, maxAmountBits, bitLength, hpipelined, hone, htwo, hlog]

theorem shifts_of_build_right :
    ∃ built, build unclocked 2 2 .right = .ok (⟨2, 2, .right⟩, built) ∧
      (⟨2, 2, .right⟩ : Shifter).emulate 7 11 = .ok 1 ∧
      (⟨2, 2, .right⟩ : Shifter).evaluate 7 11 = .ok 1 ∧
      ∃ g ∈ built.component.signals, g.name = "level2" ∧ g.width = 5 := by
  obtain ⟨built, hbuild⟩ := build_right
  obtain ⟨⟨r, hevaluate, hemulate, -⟩, hlevels⟩ := shifts_of_build hbuild (by decide) 7 11
  obtain ⟨-, -, g, hg, hname, hwidth⟩ := hlevels 1 (by decide)
  have hr : (⟨2, 2, .right⟩ : Shifter).emulate 7 11 = .ok 1 := by rfl
  obtain rfl : r = 1 := by
    rw [hr] at hemulate
    cases hemulate
    rfl
  exact ⟨built, hbuild, hr, hevaluate, g, hg, hname, hwidth⟩

end Shifter

end Datapath
