/-
What steps of a product add to a heap.

* `Site.cut`: the bits of a product below it are dropped; the others keep their
  weight above the lowest one of the heap.
* `Site.Counts`: the weights of the bits of a product can be counted.
* `Site.Puts`: bits of one signal come into a heap. `addBits_puts` says what
  they add, and `sum_digits` what that is for a whole signal.
* `Site.Adds`: steps that add a number to a heap, up to the loss of dropped
  bits, if every new signal is worth the partial product that was recorded for
  it. Such steps follow one another (`Adds.trans`).
* `Site.Adds.emit`, `Site.Adds.put`: a new partial product, and its bits.
-/
import Datapath.Product.Site
import Datapath.Proofs.BitHeap.Additions
import Datapath.Proofs.Product.Elements
import Datapath.Proofs.Product.Values

namespace Datapath

/-! ### Steps of a contribution -/

namespace Contributing

variable {α : Type} {c c' : Contribution} {r : α}

/-- A step of the construction leaves the heap and the partial products
alone. -/
lemma build_eq_ok {step : Build α} :
    build step c = .ok r c' ↔ ∃ b, step c.builder = .ok r b ∧ { c with builder := b } = c' := by
  rw [build]
  cases step c.builder <;> simp

/-- An addition to the heap leaves the operator and the partial products
alone. -/
lemma heap_eq_ok {step : Schedule → Heaping α} :
    heap step c = .ok r c' ↔
      ∃ h, step c.builder.schedule c.heap = .ok r h ∧ { c with heap := h } = c' := by
  rw [heap]
  dsimp only
  cases step c.builder.schedule c.heap <;> simp

lemma record_eq_ok {id : SignalId} {p : PartialProduct} {r : Unit} :
    record id p c = .ok r c' ↔ { c with parts := c.parts.insert id p } = c' :=
  modify_eq_ok

end Contributing

/-! ### Digits in a heap -/

namespace Heaping

variable {sched : Schedule} {r : BitRef} {weight : ℤ} {h h' : BitHeap}

/-- A bit adds its digit, which is negative if it is inverted and constants are
added from its weight up. -/
lemma addDigit_gain (hcounts : h.Counts weight 1) (htop : r.negated = true → h.CountsTop)
    (hadd : (do
      addSignalBit sched weight r
      if r.negated then addSignExtension weight : Heaping Unit) h = .ok () h') (v : Assignment) :
    h.Gain h' v (digit r.negated (v r.signal) r.index * 2 ^ (weight - h.lsbWeight)) := by
  obtain ⟨_, h₁, hbit, hrest⟩ := bind_eq_ok.mp hadd
  have hgain := (addSignalBit_gain hcounts hbit v).2
  rw [BitRef.valueIn] at hgain
  cases hneg : r.negated with
  | false =>
    rw [hneg] at hrest hgain
    obtain ⟨-, rfl⟩ := pure_eq_ok.mp hrest
    exact hgain
  | true =>
    rw [hneg] at hrest hgain
    have hext := addSignExtension_gain (hcounts.of_sameShape hgain.shape)
      ((htop hneg).of_sameShape hgain.shape) hrest v
    rw [hgain.shape.lsbWeight] at hext
    -- the inverted bit and the constants above it are minus the bit
    have hboth := hgain.trans hext
    rw [if_pos rfl, Nat.cast_sub (wordBit_le_one _ _)] at hboth
    rw [digit, if_pos rfl]
    convert hboth using 1
    push_cast
    ring

lemma addDigit_keeps {P : SignalId → Prop} {I : BitHeap → Prop} (hI : BitHeap.Lasting P I)
    (weight : ℤ) (hr : P r.signal) :
    Keeps I (do
      addSignalBit sched weight r
      if r.negated then addSignExtension weight : Heaping Unit) :=
  (addSignalBit_keeps hI weight hr).bind fun _ => .ite (addSignExtension_keeps hI weight) (.pure _)

end Heaping

/-- All partial products are signals of the operator. -/
def Contribution.Sound (c : Contribution) : Prop := ∀ id ∈ c.parts, c.builder.Declares id

lemma Contribution.mem_parts (c : Contribution) {id : SignalId} {p : PartialProduct}
    (h : c.parts[id]? = some p) : id ∈ c.parts :=
  Std.HashMap.isSome_getElem?_iff_mem.mp (Option.isSome_iff_exists.mpr ⟨p, h⟩)

/-- All partial products have their values for two operands. -/
def Contribution.Gives (c : Contribution) (v : Assignment) (x y : ℕ) : Prop :=
  ∀ id p, c.parts[id]? = some p → v id = p.value x y

/-- A valuation in which all partial products have their values. -/
lemma Contribution.gives_total (c : Contribution) {values : Valuation} {x y : ℕ}
    (h : ∀ id p, c.parts[id]? = some p → values id = some (p.value x y)) :
    c.Gives values.total x y ∧ ∀ id ∈ c.parts, values.Gives values.total id := by
  refine ⟨?_, ?_⟩
  · intro id p hp
    rw [Valuation.total, h id p hp, Option.getD_some]
  · intro id hid
    obtain ⟨p, hp⟩ := Option.isSome_iff_exists.mp (Std.HashMap.isSome_getElem?_iff_mem.mpr hid)
    exact Valuation.gives_total (by rw [h id p hp]; rfl)

namespace Site

variable {s : Site} {c c' c₁ c₂ : Contribution} {id : SignalId} {x y : ℕ}

/-! ### Bits of a signal -/

/-- The place of a product in a heap. -/
def place (s : Site) (h : BitHeap) : ℤ := s.base - h.lsbWeight

/-- The number of low bits of a product that lie below a heap. -/
def cut (s : Site) (h : BitHeap) : ℕ := (-s.place h).toNat

lemma place_of_sameShape {h h' : BitHeap} (hshape : h.SameShape h') : s.place h' = s.place h := by
  rw [place, place, hshape.lsbWeight]

lemma cut_of_sameShape {h h' : BitHeap} (hshape : h.SameShape h') : s.cut h' = s.cut h := by
  rw [cut, cut, place_of_sameShape hshape]

/-- The weights of all bits of a product can be counted, and the top of the heap can
where some bits are negative. -/
def Counts (s : Site) (h : BitHeap) : Prop :=
  h.Counts s.base (s.wx + s.wy) ∧ (s.signed = true → h.CountsTop)

lemma Counts.of_sameShape {h h' : BitHeap} (hcounts : s.Counts h) (hshape : h.SameShape h') :
    s.Counts h' :=
  ⟨hcounts.1.of_sameShape hshape, fun hs => (hcounts.2 hs).of_sameShape hshape⟩

/-- Steps that bring bits of one signal into a heap and add an amount. -/
structure Puts (s : Site) (c c' : Contribution) (id : SignalId) (amount : Assignment → ℤ) :
    Prop where
  builder : c'.builder = c.builder
  parts : c'.parts = c.parts
  shape : c.heap.SameShape c'.heap
  bits : ∀ P : SignalId → Prop, c.heap.On P → P id → c'.heap.On P
  gain : s.Counts c.heap → ∀ v, c.heap.Gain c'.heap v (amount v * 2 ^ s.place c.heap)

lemma Puts.none (s : Site) (c : Contribution) (id : SignalId) : s.Puts c c id fun _ => 0 :=
  ⟨rfl, rfl, .refl _, fun _ hon _ => hon, fun _ v => by simpa using BitHeap.Gain.none c.heap v⟩

lemma Puts.trans {amount amount' : Assignment → ℤ} (h : s.Puts c c₁ id amount)
    (h' : s.Puts c₁ c₂ id amount') : s.Puts c c₂ id fun v => amount v + amount' v := by
  refine ⟨h'.builder.trans h.builder, h'.parts.trans h.parts, h.shape.trans h'.shape,
    fun P hon hid => h'.bits P (h.bits P hon hid) hid, fun hcounts v => ?_⟩
  have hgain := (h.gain hcounts v).trans (h'.gain (hcounts.of_sameShape h.shape) v)
  rw [place_of_sameShape h.shape, ← add_mul] at hgain
  push_cast
  exact hgain

/-- A bit of a product adds its digit at its weight, or it is dropped. -/
lemma addBit_puts {r : BitRef} {w : ℕ} (hw : w < s.wx + s.wy)
    (hneg : r.negated = true → s.signed = true) (h : s.addBit r w c = .ok () c') :
    s.Puts c c' r.signal fun v =>
      if s.cut c.heap ≤ w then digit r.negated (v r.signal) r.index * 2 ^ w else 0 := by
  obtain ⟨c₀, c₁, hget, h⟩ := bind_eq_ok.mp h
  obtain ⟨rfl, rfl⟩ := get_eq_ok.mp hget
  have hweight : s.Counts c.heap → c.heap.Counts (s.base + w) 1 := fun hcounts =>
    hcounts.1.part (by omega)
  have hcut : s.Counts c.heap →
      (s.cut c.heap ≤ w ↔ ¬ wrapSigned64 (s.base + w) < c.heap.lsbWeight) := by
    intro hcounts
    rw [(hweight hcounts).wrap_eq, cut, place]
    omega
  by_cases hbelow : wrapSigned64 (s.base + w) < c.heap.lsbWeight
  · rw [if_pos hbelow] at h
    obtain ⟨-, rfl⟩ := pure_eq_ok.mp h
    refine ⟨rfl, rfl, .refl _, fun _ hon _ => hon, fun hcounts v => ?_⟩
    rw [if_neg ((hcut hcounts).not.mpr (not_not.mpr hbelow)), Int.cast_zero, zero_mul]
    exact BitHeap.Gain.none c.heap v
  · rw [if_neg hbelow] at h
    obtain ⟨heap, hheap, rfl⟩ := Contributing.heap_eq_ok.mp h
    refine ⟨rfl, rfl, ?_, fun P hon hr => ?_, fun hcounts v => ?_⟩
    · exact (Heaping.addDigit_keeps (BitHeap.lasting_sameShape (fun _ => True) c.heap) _ trivial _
        (.refl _)).1 _ _ hheap
    · exact (Heaping.addDigit_keeps (BitHeap.lasting_on P) _ hr _ hon).1 _ _ hheap
    · rw [(hweight hcounts).wrap_eq] at hheap
      have hgain := Heaping.addDigit_gain (hweight hcounts) (fun hr => hcounts.2 (hneg hr)) hheap v
      have hplace : s.base + w - c.heap.lsbWeight = w + s.place c.heap := by
        rw [place]
        ring
      rw [hplace, zpow_add₀ (two_ne_zero' ℚ), zpow_natCast, ← mul_assoc] at hgain
      rw [if_pos ((hcut hcounts).mpr hbelow)]
      push_cast
      exact hgain

/-- Bits of a signal add their digits at their weights, apart from those that
are dropped. -/
lemma addBits_puts {negative : ℕ → Bool} {w index count : ℕ} (hw : w + count ≤ s.wx + s.wy)
    (hneg : ∀ i, negative i = true → s.signed = true)
    (h : s.addBits id negative w index count c = .ok () c') :
    s.Puts c c' id fun v => ∑ i ∈ Finset.range count,
      if s.cut c.heap ≤ w + i then
        digit (negative (index + i)) (v id) (index + i) * 2 ^ (w + i)
      else 0 := by
  induction count generalizing c w index with
  | zero =>
    obtain ⟨-, rfl⟩ := pure_eq_ok.mp h
    exact Puts.none s c id
  | succ count ih =>
    obtain ⟨_, c₁, hbit, hrest⟩ := bind_eq_ok.mp h
    have hfirst := addBit_puts (by omega) (hneg index) hbit
    have hall := hfirst.trans (ih (w := w + 1) (by omega) (by exact_mod_cast hrest))
    convert hall using 2 with v
    rw [Finset.sum_range_succ', add_comm, cut_of_sameShape hfirst.shape]
    congr 1
    refine Finset.sum_congr rfl ?_
    intro i _
    rw [show index + (i + 1) = index + 1 + i by omega, show w + (i + 1) = w + 1 + i by omega]

lemma readOperands_rising (s : Site) : Rising s.readOperands :=
  (Build.moveTo_rising _).bind fun _ => (Build.read_rising _).bind fun _ =>
    (Build.read_rising _).bind fun _ => .pure _

/-- A whole signal goes in as all its bits. -/
lemma addBits_of_addOperand {weight : ℤ} {top : Bool} {width : ℕ}
    (hid : c.builder.HasWidth id width) (h : s.addOperand id weight top c = .ok () c') :
    s.addBits id (fun i => top && i + 1 == width) weight 0 width c = .ok () c' := by
  obtain ⟨g, c₁, hbuild, hrest⟩ := bind_eq_ok.mp h
  obtain ⟨b, hsignal, rfl⟩ := Contributing.build_eq_ok.mp hbuild
  obtain ⟨rfl, rfl⟩ := hid.eq_of_signal hsignal
  exact hrest

/-! ### What steps add -/

/-- Steps that add a number to a heap, if the partial products have their
values for two operands and the weights can be counted. Up to `loss` may be lost
below the heap. -/
structure Adds (s : Site) (c c' : Contribution) (x y : ℕ) (full : ℤ) (loss : ℕ) : Prop where
  builder : c.builder ≤ c'.builder
  shape : c.heap.SameShape c'.heap
  sound : c'.Sound
  parts : ∀ (id : SignalId) (p : PartialProduct), c.parts[id]? = some p → c'.parts[id]? = some p
  fresh : ∀ id ∈ c'.parts, id ∈ c.parts ∨ ¬ c.builder.Declares id
  bits : ∀ P : SignalId → Prop, c.heap.On P → (∀ id ∈ c'.parts, P id) → c'.heap.On P
  gain : s.Counts c.heap → ∀ v, c'.Gives v x y →
    ∃ lost : ℤ, |lost| ≤ loss ∧ (s.signed = false → 0 ≤ lost) ∧
      c.heap.Gain c'.heap v ((full - lost : ℤ) * 2 ^ s.place c.heap)

namespace Adds

variable {full full' : ℤ} {loss loss' : ℕ}

/-- Steps of the construction add nothing. -/
lemma of_builder {b : Builder} (hsound : c.Sound) (hle : c.builder ≤ b) :
    s.Adds c { c with builder := b } x y 0 0 where
  builder := hle
  shape := .refl _
  sound id hid := (hsound id hid).mono hle
  parts _ _ h := h
  fresh _ h := .inl h
  bits _ hon _ := hon
  gain _ v _ := ⟨0, by simp, fun _ => le_rfl, by simpa using BitHeap.Gain.none c.heap v⟩

lemma none (hsound : c.Sound) : s.Adds c c x y 0 0 := of_builder hsound (le_refl c.builder)

lemma build {α : Type} {step : Build α} {r : α} (hsound : c.Sound) (hrises : Rising step)
    (h : Contributing.build step c = .ok r c') : s.Adds c c' x y 0 0 := by
  obtain ⟨b, hstep, rfl⟩ := Contributing.build_eq_ok.mp h
  exact of_builder hsound (hrises hstep)

/-- Steps after each other add up, and so does what they lose. -/
lemma trans (h : s.Adds c c₁ x y full loss) (h' : s.Adds c₁ c₂ x y full' loss') :
    s.Adds c c₂ x y (full + full') (loss + loss') where
  builder := h.builder.trans h'.builder
  shape := h.shape.trans h'.shape
  sound := h'.sound
  parts id p hp := h'.parts id p (h.parts id p hp)
  fresh id hid := by
    rcases h'.fresh id hid with hid | hnew
    · exact h.fresh id hid
    · exact .inr fun hold => hnew (hold.mono h.builder)
  bits P hon hP := by
    refine h'.bits P (h.bits P hon fun id hid => hP id ?_) hP
    obtain ⟨p, hp⟩ := Option.isSome_iff_exists.mp (Std.HashMap.isSome_getElem?_iff_mem.mpr hid)
    exact c₂.mem_parts (h'.parts _ _ hp)
  gain hcounts v hv := by
    obtain ⟨lost, habs, hsign, hgain⟩ :=
      h.gain hcounts v fun id p hp => hv id p (h'.parts id p hp)
    obtain ⟨lost', habs', hsign', hgain'⟩ := h'.gain (hcounts.of_sameShape h.shape) v hv
    refine ⟨lost + lost', ?_, fun hs => add_nonneg (hsign hs) (hsign' hs), ?_⟩
    · rw [Nat.cast_add]
      exact (abs_add_le _ _).trans (add_le_add habs habs')
    · have hboth := hgain.trans hgain'
      rw [place_of_sameShape h.shape, ← add_mul] at hboth
      convert hboth using 2
      push_cast
      ring

/-- A new signal becomes a partial product. -/
lemma emit {step : Build SignalId} {p : PartialProduct} {width : ℕ} {r : Unit} (hsound : c.Sound)
    (hbuild : Contributing.build step c = .ok id c₁)
    (hrecord : Contributing.record id p c₁ = .ok r c₂)
    (hemits : ∀ b, step c.builder = .ok id b → c.builder.Emits b id width) :
    s.Adds c c₂ x y 0 0 ∧ c₂.builder.HasWidth id width ∧ c₂.parts[id]? = some p := by
  obtain ⟨b, hstep, rfl⟩ := Contributing.build_eq_ok.mp hbuild
  obtain rfl := Contributing.record_eq_ok.mp hrecord
  have h := hemits b hstep
  refine ⟨⟨h.later, .refl _, fun id' hid' => ?_, fun id' p' hp' => ?_, fun id' hid' => ?_,
    fun _ hon _ => hon, fun _ v _ => ⟨0, by simp, fun _ => le_rfl, ?_⟩⟩, h.hasWidth,
    Std.HashMap.getElem?_insert_self⟩
  · rcases Std.HashMap.mem_insert.mp hid' with heq | hold
    · rw [← eq_of_beq heq]
      exact h.hasWidth.declares
    · exact (hsound id' hold).mono h.later
  · have hne : id ≠ id' := by
      rintro rfl
      exact h.fresh (hsound id (c.mem_parts hp'))
    rw [Std.HashMap.getElem?_insert, if_neg (by simpa using hne)]
    exact hp'
  · rcases Std.HashMap.mem_insert.mp hid' with heq | hold
    · exact .inr (eq_of_beq heq ▸ h.fresh)
    · exact .inl hold
  · simpa using BitHeap.Gain.none c.heap v

/-- The bits of a partial product on a rectangle add its value, and they lose
no more than the cells below the heap. -/
lemma put {r : Tiling.Rect} {p : PartialProduct} {negative : ℕ → Bool} {flip top : Bool}
    {weight count : ℕ} {value : ℤ} (hsound : c.Sound)
    (hbits : s.addBits id negative weight 0 count c = .ok () c') (hp : c.parts[id]? = some p)
    (hweight : weight = r.x + r.y) (hin : weight + count ≤ s.wx + s.wy)
    (hnegative : ∀ i, negative i = (flip != (top && i + 1 == count)))
    (hplain : s.signed = false → flip = false ∧ top = false) (hword : count ≤ wordBits)
    (hvalue : digitValue top count (p.value x y) = value)
    (habs : |value| ≤ ((2 ^ r.width - 1) * (2 ^ r.height - 1) : ℕ))
    (hcount : r.width + r.height ≤ count + 1)
    (hfit : (0 < r.width ∧ 0 < r.height ∧ count ≤ r.width + r.height) ∨
      (p.value x y : ℤ) = value)
    (hsign : s.signed = false → 0 ≤ value) :
    s.Adds c c' x y ((if flip then -value else value) * 2 ^ weight)
      (r.lowSum (s.cut c.heap)) := by
  subst hweight
  have hneg : ∀ i, negative i = true → s.signed = true := by
    intro i hi
    by_contra hs
    obtain ⟨hflip, htop⟩ := hplain (by simpa using hs)
    simp [hnegative, hflip, htop] at hi
  have hputs := addBits_puts hin hneg hbits
  refine ⟨hputs.builder ▸ le_rfl, hputs.shape, ?_, ?_, ?_, ?_, ?_⟩
  · intro id' hid'
    rw [hputs.builder]
    exact hsound id' (hputs.parts ▸ hid')
  · intro id' p' hp'
    rwa [hputs.parts]
  · intro id' hid'
    exact .inl (hputs.parts ▸ hid')
  · intro P hon hP
    refine hputs.bits P hon (hP id ?_)
    rw [hputs.parts]
    exact c.mem_parts hp
  · intro hcounts v hv
    have hid : v id = p.value x y := hv id p (by rw [hputs.parts, hp])
    have hgain := hputs.gain hcounts v
    have hlost := lostPart_le (t := s.cut c.heap) habs hcount hfit
    simp only [Nat.zero_add, hid, hnegative] at hgain
    cases flip with
    | false =>
      simp only [Bool.false_bne] at hgain
      rw [sum_digits hword, hvalue] at hgain
      refine ⟨_, hlost, fun hs => mul_nonneg (lostPart_nonneg (hsign hs)) (by positivity), ?_⟩
      rw [if_neg Bool.false_ne_true, ← sub_mul]
      exact hgain
    | true =>
      simp only [Bool.true_bne] at hgain
      rw [sum_digits_flip hword, hvalue] at hgain
      refine ⟨-_, (abs_neg _).trans_le hlost, fun hs => absurd (hplain hs).1 (by simp), ?_⟩
      rw [if_pos rfl, neg_mul, sub_neg_eq_add, neg_add_eq_sub, ← neg_sub, ← sub_mul]
      exact hgain

/-- Bits of which at most the top one is negative. -/
lemma put_top {r : Tiling.Rect} {p : PartialProduct} {top : Bool} {weight count : ℕ} {value : ℤ}
    (hsound : c.Sound)
    (hbits : s.addBits id (fun i => top && i + 1 == count) weight 0 count c = .ok () c')
    (hp : c.parts[id]? = some p) (hweight : weight = r.x + r.y)
    (hin : weight + count ≤ s.wx + s.wy) (hplain : s.signed = false → top = false)
    (hword : count ≤ wordBits) (hvalue : digitValue top count (p.value x y) = value)
    (habs : |value| ≤ ((2 ^ r.width - 1) * (2 ^ r.height - 1) : ℕ))
    (hcount : r.width + r.height ≤ count + 1)
    (hfit : (0 < r.width ∧ 0 < r.height ∧ count ≤ r.width + r.height) ∨
      (p.value x y : ℤ) = value)
    (hsign : s.signed = false → 0 ≤ value) :
    s.Adds c c' x y (value * 2 ^ weight) (r.lowSum (s.cut c.heap)) := by
  have hput := put hsound hbits hp hweight hin (fun i => (Bool.false_xor _).symm)
    (fun hs => ⟨rfl, hplain hs⟩) hword hvalue habs hcount hfit hsign
  rwa [if_neg Bool.false_ne_true] at hput

end Adds

end Site

end Datapath
