/-
Partial products of multipliers fit in their signals.

* `ProductModel.HasRoom`: every partial product of a model is a signal that is
  wide enough for its values.
* `Site.addProduct_sizes`: every architecture leaves room for its partial
  products; `Site.room_of_enter`: for two signals this is room for all values that
  the model lists.
* `MultiplierPlan.Computes.room`: so it is for whatever computes the product of
  a multiplier.
* `Multiplier.parts_have_room`: no partial product of a multiplier, or of a product
  in the heap of another operator, overflows its signal.
-/
import Datapath.Proofs.Construction.Additions
import Datapath.Proofs.Multiplier.Parts
import Datapath.Proofs.Product.Widths

namespace Datapath

/-! ### Models -/

/-- Every partial product of a model is a signal that is wide enough for it,
whatever the operands are. The sum of a cascade has the bits of the whole
product, of which there are `full`, from the lowest block up, and these are
enough for the exact sum. -/
def ProductModel.HasRoom (m : ProductModel) (full : ℕ) (signals : Array Signal) : Prop :=
  ∀ id p, m.parts[id]? = some p → ∃ g, signals[id]? = some g ∧
    (∀ x y, ∃ n, m.value? id x y = some n ∧ n < 2 ^ g.width) ∧
    ∀ terms, p = .cascade terms → ∃ first ∈ terms.head?, g.width + first.weight = full ∧
      ∀ x y, PartialProduct.cascadeSum (m.operands x y).1 (m.operands x y).2 terms < 2 ^ g.width

variable {wx wy : ℕ}

/-- The operands of a model are as wide as they may be. -/
lemma Builder.RoomFor.hasRoom {b : Builder} {parts : Std.HashMap SignalId PartialProduct}
    (signed : Bool) (h : b.RoomFor parts (max wx wy) (min wx wy)) :
    { ProductModel.forWidths wx wy signed with parts }.HasRoom (wx + wy)
      b.schedule.signals.items := by
  intro id p hp
  obtain ⟨width, ⟨g, hg, rfl⟩, hwithin⟩ := h id p hp
  refine ⟨g, hg, fun x y => ?_, fun terms hterms => ?_⟩
  · obtain ⟨hx, hy⟩ := ProductModel.operands_lt wx wy signed x y
    exact ⟨_, ProductModel.value?_of_parts hp x y, hwithin.lt _ _ hx hy⟩
  · obtain ⟨first, hfirst, hwidth, hsum⟩ := hwithin.sum terms hterms
    rw [max_add_min] at hwidth
    refine ⟨first, hfirst, hwidth, fun x y => ?_⟩
    obtain ⟨hx, hy⟩ := ProductModel.operands_lt wx wy signed x y
    exact hsum _ _ hx hy

/-! ### Architectures -/

namespace Site

variable {s : Site} {c c' : Contribution} {options : MultiplierOptions}
  {architecture : Architecture} {report : Option TilingReport}

/-- Every architecture leaves room for its partial products. -/
theorem addProduct_sizes [Tiling.Surroundings] (hs : s.Narrow) (hr : s.Reads c.builder)
    (h : s.addProduct options architecture c = .ok report c') : s.Sizes c c' := by
  cases architecture with
  | singleTable => exact (addTable_sizes.bind fun _ => .pure _) h
  | rows => exact (addRows_sizes.bind fun _ => .pure _) h
  | singleBlock =>
    obtain ⟨_, c₁, hblock, hpure⟩ := bind_eq_ok.mp h
    obtain ⟨-, rfl⟩ := pure_eq_ok.mp hpure
    exact addBlock_sizes hs hr hblock
  | tiling =>
    rw [addProduct, map_eq_pure_bind] at h
    exact ((addTiling_sizes hs).bind fun _ => .pure _) h
  | logic => exact ((addTables_sizes _).bind fun _ => .pure _) h

/-- A multiplication of two signals leaves room for the values of its partial
products. -/
lemma room_of_enter [Tiling.Surroundings] {t : Target} {x y : SignalId} {signed : Bool} {base : ℤ}
    {b₀ b : Builder} {heap : BitHeap} (hx : b₀.HasWidth x wx) (hy : b₀.HasWidth y wy)
    (hposx : 0 < wx) (hposy : 0 < wy) (hword : wx + wy ≤ wordBits)
    (henter : enter t (.forWidths wx wy signed) ((ProductModel.forWidths wx wy signed).order x y).1
      ((ProductModel.forWidths wx wy signed).order x y).2 base b₀ = .ok s b)
    (h : s.addProduct options architecture { builder := b, heap, parts := ∅ } = .ok report c') :
    c'.builder.RoomFor c'.parts (max wx wy) (min wx wy) := by
  obtain ⟨-, -, -, hwx, hwy, -⟩ := enter_ok henter
  change s.wx = max wx wy at hwx
  change s.wy = min wx wy at hwy
  have hnarrow : s.Narrow := ⟨by omega, by omega, by omega⟩
  rw [← hwx, ← hwy]
  exact (addProduct_sizes hnarrow (reads_of_enter hx hy henter) h).room (.empty _ _ _)

end Site

lemma BitHeap.compress_rising (h : BitHeap) (t : Target) : Rising (h.compress t) := by
  intro b _ b' hs
  have hrun : Builder.Run (fun _ => True) b b' := compress_run (fun _ => trivial) hs
  exact hrun.later

namespace MultiplierPlan

variable {p : MultiplierPlan} {t : Target} {options : MultiplierOptions} {low : ℕ}
  {b b' : Builder} {x y : SignalId}

/-- Whatever computes the product, there is room for the partial products. -/
lemma Computes.room [Tiling.Surroundings] {circuit : MultiplierCircuit} (hp : p.Sound low)
    (hx : b.HasWidth x p.wx) (hy : b.HasWidth y p.wy)
    (h : p.Computes t options p.noParts (p.noParts.order x y).1 (p.noParts.order x y).2 b
      circuit b') :
    ∃ parts, circuit.model = { p.noParts with parts } ∧
      b'.RoomFor parts (max p.wx p.wy) (min p.wx p.wy) := by
  cases h with
  | table _ _ _ => exact ⟨∅, rfl, .empty _ _ _⟩
  | block _ hplace =>
    obtain ⟨hfirst, hsecond⟩ := ProductModel.hasWidth_order p.signed hx hy
    have hword : max p.wx p.wy + min p.wx p.wy ≤ wordBits := (max_add_min _ _).trans_le hp.word
    exact ⟨_, rfl, (Builder.RoomFor.empty b _ _).insert (placeBlock_emits hfirst hsecond hplace)
      (PartialProduct.block_within hword 0 0 le_rfl le_rfl p.signed)⟩
  | heap _ _ hfill hcompress =>
    obtain ⟨heap, s, b₃, c₁, -, henter, hproduct, rfl, hparts, -⟩ := fillHeap_eq_ok hfill
    have hroom := Site.room_of_enter hx hy hp.posX hp.posY hp.word henter hproduct
    exact ⟨_, rfl, hparts ▸ hroom.mono (BitHeap.compress_rising _ t hcompress)⟩

/-- The signals of a multiplier have room for its partial products. -/
lemma steps_room [Tiling.Surroundings] {m : Multiplier} (hp : p.Sound low)
    (h : p.steps t options b = .ok m b') :
    m.model.HasRoom (p.wx + p.wy) b'.schedule.signals.items := by
  obtain ⟨circuit, _, _, _, _, _, _, _, _, _, -, -, hx, hy, hcircuit, hreport, hout, rfl⟩ :=
    steps_eq_ok h
  have hinputs := addInput_emits hy
  obtain ⟨parts, hmodel, hroom⟩ := hcircuit.room hp
    ((addInput_emits hx).hasWidth.mono hinputs.later) hinputs.hasWidth
  have hall := hroom.mono ((reportTiling_rising _ hreport).trans
    (Build.addOutput_rising _ _ _ hout))
  change circuit.model.HasRoom _ _
  rw [hmodel]
  exact hall.hasRoom p.signed

end MultiplierPlan

namespace Multiplier

variable {t : Target} {signed : Bool} {options : MultiplierOptions}

/-- A product in the heap of another operator has room for its partial products. -/
lemma contribute_room [Tiling.Surroundings] {x y : SignalId} {weight : ℤ} {c c' : Contribution}
    {m : VirtualMultiplier} (hx : c.builder.HasWidth x wx) (hy : c.builder.HasWidth y wy)
    (hword : wx + wy ≤ wordBits) (h : contribute t x y signed weight options c = .ok m c') :
    m.model.HasRoom (wx + wy) c'.builder.schedule.signals.items := by
  obtain ⟨hposx, hposy, hmodel, s, b₀, b, architecture, report, c₁, hle, -, henter, hproduct,
    hreport⟩ := contribute_eq_ok hx hy h
  have hroom := Site.room_of_enter (hx.mono hle) (hy.mono hle) hposx hposy hword henter hproduct
  obtain ⟨b', hsteps, rfl⟩ := Contributing.build_eq_ok.mp hreport
  rw [hmodel]
  exact (hroom.mono (reportTiling_rising _ hsteps)).hasRoom signed

/-- **No partial product overflows its signal.** Every partial product that a
model lists is a signal, of the multiplier that was built or of the operator that
the product was added to. Its values are below the power of two of its width for
all operands, on every target, with all options, and with signs or without. The
sum of some blocks of a cascade has the width of the product above the lowest of
them, and the exact sum is below the power of two of that. -/
theorem parts_have_room [Tiling.Surroundings] (hword : wx + wy ≤ wordBits) :
    (∀ {wOut : ℕ} {m : Multiplier} {built : BuiltOperator},
      build t wx wy wOut signed options = .ok (m, built) →
        m.model.HasRoom (wx + wy) built.component.signals) ∧
      ∀ {x y : SignalId} {weight : ℤ} {c c' : Contribution} {m : VirtualMultiplier},
        c.builder.HasWidth x wx → c.builder.HasWidth y wy →
          contribute t x y signed weight options c = .ok m c' →
            m.model.HasRoom (wx + wy) c'.builder.schedule.signals.items := by
  refine ⟨fun h => ?_, fun hx hy h => contribute_room hx hy hword h⟩
  obtain ⟨p, hplan, hconstruct⟩ := except_bind_eq_ok.mp h
  obtain ⟨⟨low, hp⟩, rfl, rfl, -⟩ := MultiplierPlan.make_eq_ok hword hplan
  obtain ⟨b, hsteps, rfl⟩ := construct_eq_ok hconstruct
  exact MultiplierPlan.steps_room hp hsteps

theorem parts_have_room_shallow :
    (∃ m built, build shallow 5 3 0 false hasty = .ok (m, built) ∧
      m.model.HasRoom 8 built.component.signals) ∧
      ∃ m c', contribute tableless 0 1 true 0 .standard noProduct = .ok m c' ∧
        m.model.HasRoom 3 c'.builder.schedule.signals.items := by
  obtain ⟨m, built, hbuild, -⟩ := build_shallow
  obtain ⟨m', c', hcontribute⟩ := noProduct_contribute.1
  have hword : 5 + 3 ≤ wordBits := by decide
  have hword' : 2 + 1 ≤ wordBits := by decide
  have hx : noProduct.builder.HasWidth 0 2 := ⟨_, rfl, rfl⟩
  have hy : noProduct.builder.HasWidth 1 1 := ⟨_, rfl, rfl⟩
  exact ⟨⟨m, built, hbuild, (parts_have_room hword).1 hbuild⟩,
    m', c', hcontribute, (parts_have_room hword').2 hx hy hcontribute⟩

end Multiplier

end Datapath
