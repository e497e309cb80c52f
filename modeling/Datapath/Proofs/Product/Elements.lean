/-
New signals of tables and blocks.

* `Builder.HasWidth`: a signal is there with some width, and it keeps it.
* `Builder.Emits`: steps that declare a signal of some width, the last of
  several signals or the only one.
* `addInput_emits`: inputs are such signals.
* `placeBlock_emits`, `placeTable_emits`, `placePostAdder_emits`: the products
  and sums of elements are, too.
-/
import Datapath.Product.Element
import Datapath.Proofs.Steps

namespace Datapath

namespace Builder

variable {b b' b₁ : Builder} {id : SignalId} {width : ℕ}

/-- The signal is there and has this width. -/
def HasWidth (b : Builder) (id : SignalId) (width : ℕ) : Prop :=
  ∃ g, b.schedule.signal? id = some g ∧ g.width = width

lemma HasWidth.declares (h : b.HasWidth id width) : b.Declares id := by
  obtain ⟨g, hg, -⟩ := h
  exact Schedule.declares_iff.mpr ⟨g, hg⟩

/-- Signals keep their widths. -/
lemma HasWidth.mono (h : b.HasWidth id width) (hle : b ≤ b') : b'.HasWidth id width := by
  obtain ⟨g, hg, rfl⟩ := h
  obtain ⟨g', hg', hage⟩ := hle id g hg
  exact ⟨g', hg', hage.width⟩

/-- A signal has the width that is looked up. -/
lemma HasWidth.eq_of_signal (h : b.HasWidth id width) {g : Signal}
    (hsignal : Build.schedule (Schedule.signal id) b = .ok g b') : g.width = width ∧ b' = b := by
  obtain ⟨s, hstep, rfl⟩ := Build.schedule_eq_ok.mp hsignal
  obtain ⟨hg, rfl⟩ := Schedule.signal_eq_ok.mp hstep
  obtain ⟨g', hg', hwidth⟩ := h
  rw [hg, Option.some.injEq] at hg'
  exact ⟨hg' ▸ hwidth, rfl⟩

/-- A step declares a signal of some width. -/
structure Emits (b b' : Builder) (id : SignalId) (width : ℕ) : Prop where
  later : b ≤ b'
  fresh : ¬ b.Declares id
  hasWidth : b'.HasWidth id width

namespace Emits

lemma of_declare {name : String} (h : Build.declare name width b = .ok id b') :
    b.Emits b' id width :=
  have ⟨hle, hnew, hwidth⟩ := Build.declare_ok h
  ⟨hle, hnew, hwidth⟩

/-- Steps before the declaration do not matter. -/
lemma after (h : b₁.Emits b' id width) (hle : b ≤ b₁) : b.Emits b' id width :=
  ⟨hle.trans h.later, fun hold => h.fresh (hold.mono hle), h.hasWidth⟩

/-- Steps after the declaration do not matter. -/
lemma followed (h : b.Emits b₁ id width) (hle : b₁ ≤ b') : b.Emits b' id width :=
  ⟨h.later.trans hle, h.fresh, h.hasWidth.mono hle⟩

end Emits

end Builder

/-- An input is a new signal. -/
lemma addInput_emits {name : String} {width : ℕ} {b b' : Builder} {id : SignalId}
    (h : Build.addInput name width b = .ok id b') : b.Emits b' id width := by
  obtain ⟨id', b₁, hschedule, hrest⟩ := bind_eq_ok.mp h
  obtain ⟨_, b₂, hport, hrest⟩ := bind_eq_ok.mp hrest
  obtain ⟨_, b₃, hrecord, hpure⟩ := bind_eq_ok.mp hrest
  obtain ⟨rfl, rfl⟩ := pure_eq_ok.mp hpure
  obtain ⟨s, hdeclare, rfl⟩ := Build.schedule_eq_ok.mp hschedule
  obtain ⟨hle, hfresh, hwidth⟩ := Schedule.declareAt_eq_ok hdeclare
  obtain rfl := modify_eq_ok.mp hport
  obtain rfl := modify_eq_ok.mp hrecord
  exact ⟨hle, hfresh, hwidth⟩

/-! ### Elements -/

variable {t : Target} {b b' : Builder} {x y out : SignalId} {label : String}

/-- A block makes a signal as wide as both operands together. -/
lemma placeBlock_emits {wx wy : ℕ} (hx : b.HasWidth x wx) (hy : b.HasWidth y wy)
    (h : placeBlock t x y label b = .ok out b') : b.Emits b' out (wx + wy) := by
  obtain ⟨gx, b₁, hgx, hrest⟩ := bind_eq_ok.mp h
  obtain ⟨gy, b₂, hgy, h⟩ := bind_eq_ok.mp hrest
  obtain ⟨hwx, hb₁⟩ := hx.eq_of_signal hgx
  obtain ⟨hwy, hb₂⟩ := hy.eq_of_signal (hb₁ ▸ hgy)
  obtain ⟨_, b₃, hcomponent, h⟩ := bind_eq_ok.mp h
  obtain ⟨_, b₄, hreadx, h⟩ := bind_eq_ok.mp h
  obtain ⟨_, b₅, hready, h⟩ := bind_eq_ok.mp h
  obtain ⟨_, b₆, hadvance, h⟩ := bind_eq_ok.mp h
  obtain ⟨_, b₇, hdeclare, h⟩ := bind_eq_ok.mp h
  obtain ⟨_, b₈, hinstance, h⟩ := bind_eq_ok.mp h
  obtain ⟨rfl, rfl⟩ := pure_eq_ok.mp h
  rw [← hwx, ← hwy]
  refine ((Builder.Emits.of_declare hdeclare).after ?_).followed
    (Build.instantiate_rising _ _ _ hinstance)
  calc b = b₂ := hb₂.symm
    _ ≤ b₃ := Build.addSubcomponent_rising _ hcomponent
    _ ≤ b₄ := Build.read_rising _ hreadx
    _ ≤ b₅ := Build.read_rising _ hready
    _ ≤ b₆ := Build.advance_rising _ _ hadvance

/-- A table makes a signal of its output width. -/
lemma placeTable_emits {table : ProductTable} (h : placeTable t x y table label b = .ok out b') :
    b.Emits b' out table.wOut := by
  obtain ⟨_, b₁, hreadx, h⟩ := bind_eq_ok.mp h
  obtain ⟨_, b₂, hready, h⟩ := bind_eq_ok.mp h
  obtain ⟨xy, b₃, hinput, h⟩ := bind_eq_ok.mp h
  obtain ⟨component, b₄, hcomponent, h⟩ := bind_eq_ok.mp h
  obtain ⟨_, b₅, hadd, h⟩ := bind_eq_ok.mp h
  obtain ⟨_, b₆, hread, h⟩ := bind_eq_ok.mp h
  obtain ⟨_, b₇, hadvance, h⟩ := bind_eq_ok.mp h
  obtain ⟨_, b₈, hdeclare, h⟩ := bind_eq_ok.mp h
  obtain ⟨_, b₉, hinstance, h⟩ := bind_eq_ok.mp h
  obtain ⟨rfl, rfl⟩ := pure_eq_ok.mp h
  refine ((Builder.Emits.of_declare hdeclare).after ?_).followed
    (Build.instantiate_rising _ _ _ hinstance)
  calc b ≤ b₁ := Build.read_rising _ hreadx
    _ ≤ b₂ := Build.read_rising _ hready
    _ ≤ b₃ := Build.declare_rising _ _ hinput
    _ ≤ b₄ := Build.ofExcept_rising _ hcomponent
    _ ≤ b₅ := Build.addSubcomponent_rising _ hadd
    _ ≤ b₆ := Build.read_rising _ hread
    _ ≤ b₇ := Build.advance_rising _ _ hadvance

/-- The adder of a block makes a signal of its width. -/
lemma placePostAdder_emits {sum product : SignalId} {width : ℕ}
    (h : placePostAdder t sum product width label b = .ok out b') : b.Emits b' out width := by
  obtain ⟨_, b₁, hsum, h⟩ := bind_eq_ok.mp h
  obtain ⟨_, b₂, hproduct, h⟩ := bind_eq_ok.mp h
  obtain ⟨_, b₃, hadvance, h⟩ := bind_eq_ok.mp h
  obtain ⟨_, b₄, hdeclare, h⟩ := bind_eq_ok.mp h
  obtain ⟨_, b₅, hinstance, h⟩ := bind_eq_ok.mp h
  obtain ⟨rfl, rfl⟩ := pure_eq_ok.mp h
  refine ((Builder.Emits.of_declare hdeclare).after ?_).followed
    (Build.instantiate_rising _ _ _ hinstance)
  calc b ≤ b₁ := Build.read_rising _ hsum
    _ ≤ b₂ := Build.read_rising _ hproduct
    _ ≤ b₃ := Build.advance_rising _ _ hadvance

end Datapath
