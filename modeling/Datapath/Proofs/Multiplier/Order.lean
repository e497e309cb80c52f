/-
Multipliers keep a construction in order.

* `Site.enter_comes`: a product of inputs starts where nothing is spent of the
  first cycle.
* `MultiplierPlan.fillHeap_comes`: the bits of a filled heap are sound, and all
  uses are over once they are there.
* `MultiplierPlan.steps_comes`: a multiplier is complete, or it fails with an
  error that is due.
-/
import Datapath.Proofs.Construction.Operators
import Datapath.Proofs.Product.Cascades

namespace Datapath

open Build

variable {t : Target} {n m : ℕ} {p : Instant} {excused : ConsistencyFault → Prop} {b b' : Builder}
  {x y : SignalId} {options : MultiplierOptions}

/-- A signal of some width is there at the start of the first cycle. -/
structure Builder.Given (b : Builder) (id : SignalId) (width : ℕ) : Prop where
  has : b.Has id 0
  prompt : b.Prompt id
  hasWidth : b.HasWidth id width

lemma Builder.Given.mono {id : SignalId} {width : ℕ} (h : b.Given id width) (hle : b ≤ b') :
    b'.Given id width :=
  ⟨h.has.mono hle, h.prompt.mono hle, h.hasWidth.mono hle⟩

/-! ### Heaps -/

/-- A new heap has columns without bits. -/
lemma BitHeap.column_make {width : ℕ} {lsbWeight : ℤ} {overflow : Overflow} {h : BitHeap}
    (hmake : make width lsbWeight overflow = .ok h) :
    0 < width ∧ h.overflow = overflow ∧ ∀ w, h.column w = #[] := by
  rw [make] at hmake
  split_ifs at hmake with hwidth
  cases hmake
  refine ⟨Nat.pos_of_ne_zero hwidth, rfl, fun w => ?_⟩
  by_cases hw : w < width <;> simp [column, hw]

/-- A product of inputs starts where nothing is spent of the first cycle. -/
lemma Site.enter_comes {model : ProductModel} {base : ℤ} {wx wy : ℕ} (hb : b.Orderly t 0 p)
    (hx : b.Given x wx) (hy : b.Given y wy) :
    Comes (BuildError.Due t excused)
      (fun s b' => (∃ (k : ℕ) (start : Instant),
        s = ⟨t, x, y, model.wx, model.wy, model.signed, base, s!"mult{k}", start⟩) ∧
          s.start.Unspent ∧ s.Ready 0 b' ∧ ∃ p', b.Reaches t 0 p' ∅ b')
      (enter t model x y base b) := by
  refine ((rewindTo_comes hb hx.has).imp fun _ _ hstep h => And.intro
    (rewindTo_unspent hx.prompt hstep) h).bind ?_
  rintro _ b₁ ⟨hunspent, p₁, hle₁, hx₁, h₁⟩
  have hy₁ := hy.mono h₁.later
  refine ((syncTo_comes h₁.orderly hy₁.has).imp fun _ _ hstep h => And.intro
    (syncTo_unspent hy₁.prompt hunspent hstep) h).bind ?_
  rintro _ b₂ ⟨hunspent, p₂, hle, hle₂, hy₂, h₂⟩
  refine now_bind h₂.orderly ?_
  have hstart : p₂.cycle ≤ 0 := hle₂.trans (by simpa using hle₁)
  refine (uniqueId_comes h₂.orderly).bind ?_
  rintro k b₃ ⟨-, -, h₃⟩
  refine .pure ?_
  rw [h₂.orderly.now] at hunspent
  refine ⟨⟨k, p₂, rfl⟩, hunspent, ?_, p₂, h₁.trans (h₂.trans h₃)⟩
  exact ⟨((hx₁.mono h₂.later).of_le hle).mono h₃.later, hy₂.mono h₃.later, h₂.orderly.admits,
    hstart⟩

namespace MultiplierPlan

variable {plan : MultiplierPlan} {model : ProductModel} {wx wy : ℕ}

/-- A product comes into a heap, and then a constant one. -/
lemma productAndOne_comes [Tiling.Surroundings] (architecture : Architecture) (guard : ℕ)
    (weight : ℤ) {s : Site} {c : Contribution} {n : ℕ} (hb : c.builder.Orderly s.target n p)
    (hs : s.Ready n c.builder) (hstart : s.start.Unspent)
    (htop : c.heap.Takes (s.base + (s.wx + s.wy - 1 : ℕ)))
    (hx : c.builder.HasWidth s.x wx) (hy : c.builder.HasWidth s.y wy)
    (hexcused : options.Excused s.target ⟨s.wx, s.wy⟩ excused)
    (hfree : c.builder.Free (Below (path s.tag) (Worded Site.productWords))) :
    Comes (BuildError.Due s.target excused)
      (fun _ c' => ∃ n' p', c.Reaches s.target n n' p'
        (Below (path s.tag) (Worded Site.productWords)) c')
      ((do
        let report ← s.addProduct options architecture
        if 0 < guard then Contributing.heap fun _ => Heaping.addOne weight
        return report : Contributing (Option TilingReport)) c) := by
  refine (Site.addProduct_comes (c := c) hb hs hstart htop hx hy hexcused hfree).bind ?_
  rintro report c' ⟨n', p', h'⟩
  dsimp only
  split_ifs
  · exact (Contributing.addOne_comes h'.builder.orderly weight).bind
      fun _ _ hone => .pure ⟨n', p', h'.trans hone⟩
  · exact .pure ⟨n', p', h'⟩

/-- The bits of a filled heap are sound. -/
lemma fillHeap_comes [Tiling.Surroundings] (hb : b.Orderly t 0 p) (hx : b.Given x wx)
    (hy : b.Given y wy) (hmodel : model.wx + model.wy = plan.full) (hfull : 0 < plan.full)
    (hexcused : options.Excused t ⟨model.wx, model.wy⟩ excused)
    (hfree : b.Free (Below [] (Worded ["mult"]))) :
    Comes (BuildError.Due t excused)
      (fun r b' => r.2.heap.width = plan.heapWidth ∧
        ∃ n p', b.Reaches t n p' (Below [] (Worded ["mult"])) b' ∧ r.2.heap.Sound t n b')
      (plan.fillHeap t options model x y b) := by
  refine ofExcept_bind (fun e he => ?_) fun heap hheap => ?_
  · rw [BitHeap.make] at he
    split_ifs at he
    cases he
    trivial
  obtain ⟨hwidth, hlsb, -⟩ := BitHeap.make_eq_ok hheap
  obtain ⟨hpos, hreject, hcolumns⟩ := BitHeap.column_make hheap
  refine (Site.enter_comes hb hx hy).bind ?_
  rintro s b₁ ⟨⟨k, start, hs⟩, hstart, hready, p₁, h₁⟩
  have hsite : s.target = t ∧ s.x = x ∧ s.y = y ∧ s.wx = model.wx ∧ s.wy = model.wy ∧
      s.base = (plan.heapWidth : ℤ) - plan.full ∧ s.tag = s!"mult{k}" := by
    rw [hs]
    exact ⟨rfl, rfl, rfl, rfl, rfl, rfl, rfl⟩
  obtain ⟨rfl, rfl, rfl, hwx, hwy, hbase, htag⟩ := hsite
  rw [← hwx, ← hwy] at hmodel hexcused
  have hunder : Below (path s.tag) (Worded Site.productWords) ⊆ Below [] (Worded ["mult"]) := by
    rw [htag]
    have hpath : path s!"mult{k}" = [] ++ ["mult".toList ++ digits k] := by
      simp [path, toString, cut]
    exact below_subset_under.trans (under_subset_below hpath (by simp [Worded]))
  -- the top bit of the product goes into the top column
  have htop : heap.Takes (s.base + (s.wx + s.wy - 1 : ℕ)) := by
    have hlt : plan.heapWidth < 2 ^ 32 := wrap32_lt _
    refine ⟨hreject, ?_⟩
    rw [hlsb, wrapSigned64_of_mem] <;> omega
  let c₁ : Contribution := ⟨b₁, heap, model.parts⟩
  have hsound : c₁.heap.Sound s.target 0 c₁.builder :=
    ⟨fun w x hx => absurd hx (by simp [c₁, hcolumns w]), fun k _ => Nat.zero_le k⟩
  have hall := productAndOne_comes plan.architecture plan.guard (plan.guard - 1 : ℕ) (c := c₁)
    h₁.orderly hready hstart htop
    (hx.hasWidth.mono h₁.later) (hy.hasWidth.mono h₁.later) hexcused
    (h₁.free (hfree.mono hunder) (Set.disjoint_empty _))
  dsimp only
  set steps : Contributing (Option TilingReport) := do
    let report ← s.addProduct options plan.architecture
    if 0 < plan.guard then Contributing.heap fun _ => Heaping.addOne (plan.guard - 1 : ℕ)
    return report
  cases hresult : steps c₁ with
  | ok report c₂ =>
    rw [hresult] at hall
    obtain ⟨n, p₂, h₂⟩ := hall
    have h₂ := h₂.mono hunder
    exact ⟨h₂.heap.shape.width.trans hwidth, n, p₂, h₁.quiet.trans h₂.builder, h₂.sound hsound⟩
  | error e c₂ =>
    rw [hresult] at hall
    exact hall

/-- The words of the names of a product. -/
def circuitWords : List String := ["mult", "bh", "csa"]

/-- The product of inputs is made behind all uses. -/
lemma buildCircuit_comes [Tiling.Surroundings] (hb : b.Orderly t 0 p) (hp : p.cycle = 0)
    (hx : b.Given x wx) (hy : b.Given y wy) (hmodel : model.wx + model.wy = plan.full)
    (hfull : 0 < plan.full) (hexcused : options.Excused t ⟨model.wx, model.wy⟩ excused)
    (hwide : ExcusesWide excused plan.heapWidth) (hfree : b.Free (Below [] (Worded circuitWords))) :
    Comes (BuildError.Due t excused)
      (fun r b' => b.Concludes t (Below [] (Worded circuitWords)) r.result b')
      (plan.buildCircuit t options model x y b) := by
  have hmult : Below [] (Worded ["mult"]) ⊆ Below [] (Worded circuitWords) :=
    worded_subset (by decide)
  have hlabel : Under (path "mult") ⊆ Below [] (Worded ["mult"]) := by
    have hpath : path "mult" = [] ++ ["mult".toList] := by simp [path, cut]
    exact under_subset_below hpath (by simp [Worded])
  have hblock : Under (path "mult_dsp") ⊆ Under (path "mult") := by
    rw [show path "mult_dsp" = path "mult" ++ ["dsp".toList] by simp [path, cut]]
    exact under_subset (List.prefix_append _ _)
  have hmade : ∀ {N out width b'}, N ⊆ Under (path "mult") → b.Makes t 0 p N width out b' →
      b.Concludes t (Below [] (Worded circuitWords)) out b' := by
    rintro N out width b' hsub ⟨p', -, -, hout, -, h'⟩
    exact ⟨p', hout.has, (h'.mono (hsub.trans (hlabel.trans hmult))).of_le (Nat.zero_le _)⟩
  have hheap : Comes (BuildError.Due t excused)
      (fun r b' => b.Concludes t (Below [] (Worded circuitWords)) r.result b')
      ((do
        let filled ← plan.fillHeap t options model x y
        let outcome ← filled.2.heap.compress t
        return { result := outcome.result, core := .heap outcome,
                 model := { model with parts := filled.2.parts }, tiling := filled.1 }
        : Build MultiplierCircuit) b) := by
    refine (fillHeap_comes hb hx hy hmodel hfull hexcused (hfree.mono hmult)).bind ?_
    rintro r b₁ ⟨hwidth, n, p₁, h₁, hsound⟩
    have hfree₁ : b₁.Free (Below [] (Worded ["bh", "csa"])) :=
      h₁.free_words hfree (by decide) (by decide)
    rw [← hwidth] at hwide
    refine (BitHeap.compress_comes h₁.orderly hsound hwide hfree₁).bind fun o b₂ ho => .pure ?_
    exact (h₁.mono hmult).concludes (ho.mono (worded_subset (by decide)))
  cases harchitecture : plan.architecture
  all_goals rw [buildCircuit, harchitecture]
  case singleTable =>
    refine ofExcept_bind (fun e he => ProductTable.due_of_make he) fun table _ => ?_
    have htable : Below (path "mult") (Worded ["XY", "RR"]) ⊆ Under (path "mult") :=
      below_subset_under
    exact (placeTable_comes hb hp.le (hx.has.of_le (Nat.zero_le _)) (hy.has.of_le (Nat.zero_le _))
      (hfree.mono (htable.trans (hlabel.trans hmult)))).bind
        fun out b₁ h₁ => .pure (hmade htable h₁)
  case singleBlock =>
    have hproduct : Below (path "mult_dsp") (Worded ["R"]) ⊆ Under (path "mult") :=
      below_subset_under.trans hblock
    exact (placeBlock_comes hb hp.le (hx.has.of_le (Nat.zero_le _)) (hy.has.of_le (Nat.zero_le _))
      hx.hasWidth hy.hasWidth (hfree.mono (hproduct.trans (hlabel.trans hmult)))).bind
        fun out b₁ h₁ => .pure (hmade hproduct h₁)
  all_goals exact hheap

lemma reportAny_comes {d : Option Diagnostic} (hb : b.Orderly t n p) :
    Comes (BuildError.Due t excused) (fun _ b' => b.Reaches t n p ∅ b') (reportAny d b) := by
  cases d with
  | none => exact .pure (.refl hb)
  | some d => exact diagnose_comes hb d

lemma reportTiling_comes {report : Option TilingReport} (hb : b.Orderly t n p) :
    Comes (BuildError.Due t excused) (fun _ b' => b.Reaches t n p ∅ b')
      (reportTiling report b) := by
  cases report with
  | none => exact .pure (.refl hb)
  | some report =>
    rw [reportTiling]
    split_ifs
    · exact diagnose_comes hb _
    · exact .pure (.refl hb)

/-- A multiplier is complete, or it fails with an error that is due. -/
theorem steps_comes [Tiling.Surroundings] (hfull : 0 < plan.full)
    (hexcused : options.Excused t ⟨max plan.wx plan.wy, min plan.wx plan.wy⟩ excused)
    (hwide : ExcusesWide excused plan.heapWidth) :
    Comes (BuildError.Due t excused) (fun _ b' => b'.Complete t)
      (plan.steps t options (.forTarget plan.name t)) := by
  have hfree : ∀ N, (Builder.forTarget plan.name t).Free N := fun N => Builder.free_forTarget _ _
  refine (reportAny_comes (Builder.orderly_forTarget plan.name t)).bind fun _ b₁ h₁ => ?_
  refine (reportAny_comes h₁.orderly).bind fun _ b₂ h₂ => ?_
  have h₂ : (Builder.forTarget plan.name t).Reaches t 0 ⟨0, 0.0⟩ (Below [] (Worded [])) b₂ :=
    (h₁.trans h₂).quiet
  refine (addInput_comes (N := Below [] (Worded ["X"])) h₂.orderly
    (mem_worded_nil (by decide) (by decide))
    (h₂.free (hfree _) (worded_disjoint (by decide)))).bind ?_
  rintro x b₃ ⟨hhasX, hpromptX, hwidthX, h₃⟩
  have hx : b₃.Given x plan.wx := ⟨hhasX, hpromptX, hwidthX⟩
  have h₃ := h₂.append h₃
  refine (addInput_comes (N := Below [] (Worded ["Y"])) h₃.orderly
    (mem_worded_nil (by decide) (by decide))
    (h₃.free (hfree _) (worded_disjoint (by decide)))).bind ?_
  rintro y b₄ ⟨hhasY, hpromptY, hwidthY, h₄⟩
  have hx := hx.mono h₄.later
  have hy : b₄.Given y plan.wy := ⟨hhasY, hpromptY, hwidthY⟩
  have h₄ := h₃.append h₄
  -- the order of the operands may be the other one
  have hoperands : ∃ wx wy,
      b₄.Given ((ProductModel.forWidths plan.wx plan.wy plan.signed).order x y).1 wx ∧
      b₄.Given ((ProductModel.forWidths plan.wx plan.wy plan.signed).order x y).2 wy := by
    rw [ProductModel.order]
    split
    · exact ⟨_, _, hy, hx⟩
    · exact ⟨_, _, hx, hy⟩
  obtain ⟨wx, wy, hfirst, hsecond⟩ := hoperands
  refine (buildCircuit_comes h₄.orderly rfl hfirst hsecond (max_add_min _ _) hfull
    hexcused hwide (h₄.free (hfree _) (worded_disjoint (by decide)))).bind ?_
  rintro circuit b₅ ⟨p₅, hresult, h₅⟩
  have h₅ := h₄.append h₅
  refine (reportTiling_comes h₅.orderly).bind fun _ b₆ h₆ => ?_
  have hresult := hresult.mono h₆.later
  have h₆ := h₅.trans h₆.quiet
  exact (addOutput_comes (N := Below [] (Worded ["R"])) h₆.orderly le_rfl hresult
    (mem_worded_nil (by decide) (by decide))
    (h₆.free (hfree _) (worded_disjoint (by decide)))).bind fun _ b₇ h₇ => .pure h₇

end MultiplierPlan

end Datapath
