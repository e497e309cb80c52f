/-
The product, whatever computes it.

* `exactInt`: the exact product of two operands as an integer.
* `ProductModel.operands_lt`, `ProductModel.product_operands`: exchanged
  operands have the same product.
* `Architecture.unsigned_of_tiling`: only products without signs are tiled.
* `Site.addProduct_adds`: every architecture adds the product, and
  `Site.exact_adds_of_enter`: for two signals this is their exact product.
-/
import Datapath.Multiplier.Basic
import Datapath.Proofs.Product.Tiled

namespace Datapath

/-! ### Operands -/

/-- The exact product of the low bits of two words. -/
def exactInt (wx wy : ℕ) (signed : Bool) (x y : ℕ) : ℤ :=
  if signed then Int.bmod x (2 ^ wx) * Int.bmod y (2 ^ wy) else (x % 2 ^ wx * (y % 2 ^ wy) : ℕ)

lemma exactInt_comm (wx wy : ℕ) (signed : Bool) (x y : ℕ) :
    exactInt wy wx signed y x = exactInt wx wy signed x y := by
  rw [exactInt, exactInt, mul_comm (Int.bmod y _), Nat.mul_comm (y % _)]

/-- Operands at their widths have the exact product. -/
lemma operand_mul_operand {wx wy : ℕ} (hwx : wx ≤ wordBits) (hwy : wy ≤ wordBits) (signed : Bool)
    (x y : ℕ) :
    ProductTable.operand signed wx (truncateTo wx x) *
        ProductTable.operand signed wy (truncateTo wy y) =
      exactInt wx wy signed x y := by
  rw [exactInt, ProductTable.operand, ProductTable.operand, truncateTo_eq hwx, truncateTo_eq hwy]
  split_ifs
  · rw [signedValue_eq hwx, signedValue_eq hwy, Int.natCast_mod, Int.natCast_mod, Int.emod_bmod,
      Int.emod_bmod]
  · exact (Nat.cast_mul _ _).symm

namespace ProductModel

variable {wx wy : ℕ} {signed : Bool}

/-- The operands of a model, exchanged or not, are cut to their widths. -/
lemma operands_lt (wx wy : ℕ) (signed : Bool) (x y : ℕ) :
    ((forWidths wx wy signed).operands x y).1 < 2 ^ max wx wy ∧
      ((forWidths wx wy signed).operands x y).2 < 2 ^ min wx wy := by
  have hlt := truncateTo_lt
  simp only [Nat.one_shiftLeft] at hlt
  exact ⟨hlt _ _, hlt _ _⟩

/-- They have the same product. -/
lemma product_operands (hword : wx + wy ≤ wordBits) (x y : ℕ) :
    ProductTable.operand signed (max wx wy) ((forWidths wx wy signed).operands x y).1 *
        ProductTable.operand signed (min wx wy) ((forWidths wx wy signed).operands x y).2 =
      exactInt wx wy signed x y := by
  rcases Nat.lt_or_ge wx wy with hlt | hge
  · have hoperands : (forWidths wx wy signed).operands x y =
        (truncateTo wy y, truncateTo wx x) := by
      simp only [operands, order, forWidths, decide_eq_true hlt, if_true, max_eq_right hlt.le,
        min_eq_left hlt.le]
    rw [hoperands, max_eq_right hlt.le, min_eq_left hlt.le, operand_mul_operand (by omega)
      (by omega), exactInt_comm]
  · have hoperands : (forWidths wx wy signed).operands x y =
        (truncateTo wx x, truncateTo wy y) := by
      simp only [operands, order, forWidths, decide_eq_false (Nat.not_lt.mpr hge), if_false,
        Bool.false_eq_true, max_eq_left hge, min_eq_right hge]
    rw [hoperands, max_eq_left hge, min_eq_right hge, operand_mul_operand (by omega) (by omega)]

/-- Two signals in the order of a model have the widths of the model. -/
lemma hasWidth_order {b : Builder} {x y : SignalId} (signed : Bool) (hx : b.HasWidth x wx)
    (hy : b.HasWidth y wy) :
    b.HasWidth ((forWidths wx wy signed).order x y).1 (max wx wy) ∧
      b.HasWidth ((forWidths wx wy signed).order x y).2 (min wx wy) := by
  rcases Nat.lt_or_ge wx wy with hlt | hge
  · simp only [order, forWidths, decide_eq_true hlt, if_true, max_eq_right hlt.le,
      min_eq_left hlt.le]
    exact ⟨hy, hx⟩
  · simp only [order, forWidths, decide_eq_false (Nat.not_lt.mpr hge), if_false,
      Bool.false_eq_true, max_eq_left hge, min_eq_right hge]
    exact ⟨hx, hy⟩

/-- A partial product has its value for the operands of the model. -/
lemma value?_of_parts {m : ProductModel} {parts : Std.HashMap SignalId PartialProduct}
    {id : SignalId} {p : PartialProduct} (h : parts[id]? = some p) (x y : ℕ) :
    { m with parts }.value? id x y = some (p.value (m.operands x y).1 (m.operands x y).2) := by
  change parts[id]?.map _ = _
  rw [h, Option.map_some]
  rfl

end ProductModel

/-! ### Architectures -/

/-- Only products without signs are tiled. -/
lemma Architecture.unsigned_of_tiling {t : Target} {wx wy : ℕ} {signed : Bool} {ratio : Float}
    (h : (select t wx wy signed ratio).1 = .tiling) : signed = false := by
  rw [select] at h
  dsimp only at h
  split_ifs at h
  simp_all

namespace Site

variable {s : Site} {c c' : Contribution} {a b : ℕ}

/-- A multiplication has the operands of its model, in the order of the model,
starts later, and is on its target. -/
lemma enter_ok {t : Target} {m : ProductModel} {x y : SignalId} {base : ℤ} {b b' : Builder}
    (h : enter t m x y base b = .ok s b') :
    b ≤ b' ∧ s.x = x ∧ s.y = y ∧ s.wx = m.wx ∧ s.wy = m.wy ∧ s.signed = m.signed ∧
      s.base = base ∧ s.target = t := by
  obtain ⟨_, b₁, hrewind, hrest⟩ := bind_eq_ok.mp h
  obtain ⟨_, b₂, hsync, hrest⟩ := bind_eq_ok.mp hrest
  obtain ⟨_, b₃, hnow, hrest⟩ := bind_eq_ok.mp hrest
  obtain ⟨_, b₄, huid, hpure⟩ := bind_eq_ok.mp hrest
  obtain ⟨rfl, rfl⟩ := pure_eq_ok.mp hpure
  refine ⟨?_, rfl, rfl, rfl, rfl, rfl, rfl, rfl⟩
  calc b ≤ b₁ := Build.schedule_rising (Schedule.rewindTo_rising _) hrewind
    _ ≤ b₂ := Build.syncTo_rising _ hsync
    _ ≤ b₃ := Build.now_rising hnow
    _ ≤ b₄ := Build.uniqueId_rising huid

/-- The signals of two operands are read in the order of the model. -/
lemma reads_of_enter {t : Target} {x y : SignalId} {wx wy : ℕ} {signed : Bool} {base : ℤ}
    {b b' : Builder} (hx : b.HasWidth x wx) (hy : b.HasWidth y wy)
    (h : enter t (.forWidths wx wy signed) ((ProductModel.forWidths wx wy signed).order x y).1
      ((ProductModel.forWidths wx wy signed).order x y).2 base b = .ok s b') : s.Reads b' := by
  obtain ⟨hle, hsx, hsy, hwx, hwy, -⟩ := enter_ok h
  obtain ⟨hfirst, hsecond⟩ := ProductModel.hasWidth_order signed hx hy
  refine Reads.mono ⟨?_, ?_⟩ hle
  · rw [hsx, hwx]
    exact hfirst
  · rw [hsy, hwy]
    exact hsecond

/-- The operands of a model are operands of the multiplication, and have the
exact product. -/
lemma operands_of_model {m : ProductModel} {wx wy : ℕ} {signed : Bool}
    (hm : m = .forWidths wx wy signed) (hwx : s.wx = m.wx) (hwy : s.wy = m.wy)
    (hsigned : s.signed = m.signed) (hposx : 0 < wx) (hposy : 0 < wy) (hword : wx + wy ≤ wordBits)
    (X Y : ℕ) :
    s.Operands (m.operands X Y).1 (m.operands X Y).2 ∧
      s.exact (m.operands X Y).1 (m.operands X Y).2 = exactInt wx wy signed X Y := by
  subst hm
  obtain ⟨hltx, hlty⟩ := ProductModel.operands_lt wx wy signed X Y
  change s.wx = max wx wy at hwx
  change s.wy = min wx wy at hwy
  change s.signed = signed at hsigned
  refine ⟨⟨by omega, by omega, by omega, by rwa [hwx], by rwa [hwy]⟩, ?_⟩
  rw [exact, hwx, hwy, hsigned, ProductModel.product_operands hword]

/-- Every architecture adds the product. -/
theorem addProduct_adds [Tiling.Surroundings] {architecture : Architecture}
    {options : MultiplierOptions} {report : Option TilingReport} (hsound : c.Sound)
    (ho : s.Operands a b) (hr : s.Reads c.builder)
    (htiling : architecture = .tiling → s.signed = false)
    (h : s.addProduct options architecture c = .ok report c') :
    s.Adds c c' a b (s.exact a b) (s.grid.lowSum (s.cut c.heap)) := by
  cases architecture with
  | singleTable =>
    obtain ⟨_, c₁, htable, hpure⟩ := bind_eq_ok.mp h
    obtain ⟨-, rfl⟩ := pure_eq_ok.mp hpure
    exact addTable_adds hsound ho htable
  | rows =>
    obtain ⟨_, c₁, hrows, hpure⟩ := bind_eq_ok.mp h
    obtain ⟨-, rfl⟩ := pure_eq_ok.mp hpure
    exact addRows_adds hsound ho hrows
  | singleBlock =>
    obtain ⟨_, c₁, hblock, hpure⟩ := bind_eq_ok.mp h
    obtain ⟨-, rfl⟩ := pure_eq_ok.mp hpure
    exact addBlock_adds hsound ho hr hblock
  | tiling =>
    rw [addProduct, map_eq_pure_bind] at h
    obtain ⟨_, c₁, htiles, hpure⟩ := bind_eq_ok.mp h
    obtain ⟨-, rfl⟩ := pure_eq_ok.mp hpure
    exact addTiling_adds hsound ho (htiling rfl) htiles
  | logic =>
    obtain ⟨_, c₁, htables, hpure⟩ := bind_eq_ok.mp h
    obtain ⟨-, rfl⟩ := pure_eq_ok.mp hpure
    have hin : s.grid.Within ⟨s.wx, s.wy⟩ := ⟨(Nat.zero_add _).le, (Nat.zero_add _).le⟩
    have hadd := addTables_adds hsound ho hin htables
    convert hadd using 1
    rw [grid, chunkNumber, chunkNumber, chunk_zero, chunk_zero, Nat.mod_eq_of_lt ho.ltX,
      Nat.mod_eq_of_lt ho.ltY, Nat.add_zero, pow_zero, mul_one]
    rfl

/-- A multiplication of two signals that was entered adds their exact product to
a heap. The loss is that of the columns below the heap. -/
theorem exact_adds_of_enter [Tiling.Surroundings] {t : Target} {x y : SignalId} {wx wy : ℕ}
    {signed : Bool} {base : ℤ} {b₀ b : Builder} {heap : BitHeap} {architecture : Architecture}
    {options : MultiplierOptions} {report : Option TilingReport} (hx : b₀.HasWidth x wx)
    (hy : b₀.HasWidth y wy) (hposx : 0 < wx) (hposy : 0 < wy) (hword : wx + wy ≤ wordBits)
    (htiling : architecture = .tiling → signed = false)
    (henter : enter t (.forWidths wx wy signed) ((ProductModel.forWidths wx wy signed).order x y).1
      ((ProductModel.forWidths wx wy signed).order x y).2 base b₀ = .ok s b)
    (h : s.addProduct options architecture { builder := b, heap, parts := ∅ } = .ok report c')
    (X Y : ℕ) :
    s.Adds { builder := b, heap, parts := ∅ } c'
      ((ProductModel.forWidths wx wy signed).operands X Y).1
      ((ProductModel.forWidths wx wy signed).operands X Y).2
      (exactInt wx wy signed X Y) (s.grid.lowSum (s.cut heap)) := by
  obtain ⟨-, -, -, hwx, hwy, hsigned, -⟩ := enter_ok henter
  have hreads := reads_of_enter hx hy henter
  obtain ⟨ho, hexact⟩ := operands_of_model rfl hwx hwy hsigned hposx hposy hword X Y
  have hsound : Contribution.Sound { builder := b, heap, parts := ∅ } := by
    intro id hid
    exact absurd hid Std.HashMap.not_mem_empty
  have hunsigned : architecture = .tiling → s.signed = false := by
    intro htiles
    rw [hsigned]
    exact htiling htiles
  have hadds := addProduct_adds hsound ho hreads hunsigned h
  rwa [hexact] at hadds

end Site

end Datapath
