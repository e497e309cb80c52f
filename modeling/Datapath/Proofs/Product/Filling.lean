/-
Products fill a heap in order.

* `BitHeap.Grows`: a heap with more bits, each of which has a property. Bits
  that a signal has can be added, if parameters allow it
  (`Site.addBits_comes`).
* `Contribution.Reaches`: a later state of an operator and its heap that is in
  order. The uses in between are over once all bits of the heap are there.
* `Site.Ready`: both operands are there when a multiplication starts.
* `Site.addRows_comes`, `Site.addTable_comes`, `Site.addBlock_comes`,
  `Site.addTables_comes`: the ways to compute a product but for cascades.
-/
import Datapath.Product.Tables
import Datapath.Proofs.BitHeap.Additions
import Datapath.Proofs.BitHeap.Order
import Datapath.Proofs.Product.Order
import Datapath.Proofs.Product.Tables

namespace Datapath

variable {t : Target} {n m k : ℕ} {p p' : Instant} {excused : ConsistencyFault → Prop}
  {N N' : Set String} {α : Type} {P : HeapBit → Prop} {h h' h'' : BitHeap} {weight : ℤ} {count : ℕ}

/-! ### Heaps with more bits -/

namespace BitHeap

/-- A heap with more bits, each of which has a property. -/
structure Grows (P : HeapBit → Prop) (h h' : BitHeap) : Prop where
  shape : h.SameShape h'
  bits : ∀ w, ∀ x ∈ h'.column w, x ∈ h.column w ∨ P x
  keeps : ∀ w, ∀ x ∈ h.column w, x ∈ h'.column w

/-- A bit of this weight does not get lost: it is not below the heap, and bits above
the heap are rejected. -/
def Takes (h : BitHeap) (weight : ℤ) : Prop :=
  h.overflow = .reject ∧ h.lsbWeight ≤ wrapSigned64 weight

lemma Grows.refl (h : BitHeap) : h.Grows P h :=
  ⟨.refl h, fun _ _ hx => .inl hx, fun _ _ hx => hx⟩

lemma Grows.trans (hg : h.Grows P h') (hg' : h'.Grows P h'') : h.Grows P h'' where
  shape := hg.shape.trans hg'.shape
  bits w x hx := (hg'.bits w x hx).elim (hg.bits w x) .inr
  keeps w x hx := hg'.keeps w x (hg.keeps w x hx)

lemma takes_of_sameShape (hshape : h.SameShape h') (htakes : h.Takes weight) : h'.Takes weight := by
  rwa [Takes, hshape.overflow, hshape.lsbWeight]

lemma grows_put {w : ℕ} {x : HeapBit} (hx : P x) : h.Grows P (h.put w x) where
  shape := ⟨rfl, rfl, rfl⟩
  bits _ _ hmem := (mem_column_put hmem).imp_right fun heq => by rwa [heq]
  keeps w' x' hmem := by
    by_cases hne : w = w'
    · subst hne
      by_cases hw : w < h.width
      · rw [column_put_self hw]
        exact Array.mem_push.mpr (.inl hmem)
      · have hempty : h.column w = #[] := by simp [column, h.columns_size, hw]
        rw [hempty] at hmem
        exact absurd hmem (Array.not_mem_empty x')
    · rwa [column_put_of_ne hne]

end BitHeap

namespace Heaping

open BitHeap

/-- Only parameters are to blame for a weight without a place. -/
lemma place_comes :
    Comes (BuildError.Due t excused)
      (fun w h' => h' = h ∧ (∀ i ∈ w, i < h.width) ∧ (h.overflow = .reject → w.isSome))
      (place weight h) := by
  cases hplace : place weight h with
  | ok w h' =>
    obtain ⟨rfl, -, ⟨i, rfl, hi, -⟩ | ⟨rfl, hmodular, -⟩⟩ := place_ok hplace
    · exact ⟨rfl, by simpa, fun _ => rfl⟩
    · exact ⟨rfl, by simp, fun hreject => absurd (hmodular.symm.trans hreject) (by simp)⟩
  | error e h' =>
    unfold place at hplace
    split at hplace <;> cases hplace
    case h_2 hw =>
      simp only [BitHeap.place] at hw
      split_ifs at hw
      · cases hw
        trivial
      · split at hw <;> cases hw
        trivial

lemma addOne_comes :
    Comes (BuildError.Due t excused) (fun _ h' => h.Grows P h') (addOne weight h) := by
  refine place_comes.bind ?_
  rintro w h' ⟨hh, -, -⟩
  subst hh
  cases w with
  | none => exact .pure (.refl _)
  | some w => exact ⟨⟨rfl, rfl, rfl⟩, fun _ _ hx => .inl hx, fun _ _ hx => hx⟩

lemma addOnes_comes :
    Comes (BuildError.Due t excused) (fun _ h' => h.Grows P h') (addOnes weight count h) := by
  induction count generalizing h weight with
  | zero => exact .pure (.refl h)
  | succ count ih => exact addOne_comes.bind fun _ h₁ hg => ih.imp fun _ _ _ hg' => hg.trans hg'

/-- A bit that its signal has can be added. -/
lemma addSignalBit_comes {s : Schedule} {r : BitRef} {g : Signal}
    (hg : s.signal? r.signal = some g) (hindex : r.index < g.width)
    (hP : ∀ w, P ⟨.bit r, w, g.cycle, g.criticalPath⟩) :
    Comes (BuildError.Due t excused)
      (fun _ h' => h.Grows P h' ∧
        (h.overflow = .reject → ∃ w, ∃ x ∈ h'.column w, x.cycle = g.cycle))
      (addSignalBit s weight r h) := by
  refine Comes.bind (Q := fun g' h' => g = g' ∧ h = h') ?_ ?_
  · rw [signal, hg]
    exact ⟨rfl, rfl⟩
  rintro _ _ ⟨rfl, rfl⟩
  rw [if_neg (Nat.not_le.mpr hindex)]
  refine place_comes.bind ?_
  rintro w h' ⟨hh, hlt, hsome⟩
  subst hh
  cases w with
  | none => exact .pure ⟨.refl _, fun hreject => absurd (hsome hreject) (by simp)⟩
  | some w =>
    let x : HeapBit := ⟨.bit r, w, g.cycle, g.criticalPath⟩
    refine ⟨grows_put (hP w), fun _ => ⟨w, x, ?_, rfl⟩⟩
    rw [column_put_self (hlt w rfl)]
    exact Array.mem_push_self

end Heaping

/-! ### Operators with a heap -/

/-- A later state of an operator and its heap that is in order. All uses were
over by cycle `n`. They are over once all bits of the heap are there, by cycle
`m` at the latest. -/
structure Contribution.Reaches (t : Target) (n m : ℕ) (p : Instant) (N : Set String)
    (c c' : Contribution) : Prop where
  builder : c.builder.Reaches t m p N c'.builder
  heap : c.heap.Grows (·.Sound t c'.builder) c'.heap
  uses : ∀ k, n ≤ k → (∀ w, ∀ x ∈ c'.heap.column w, x.cycle ≤ k) → m ≤ k

variable {c c' c'' : Contribution}

namespace Contribution.Reaches

/-- Steps of the construction alone. -/
lemma of_builder {b' : Builder} (hb : c.builder.Reaches t n p N b') :
    c.Reaches t n n p N { c with builder := b' } :=
  ⟨hb, .refl _, fun _ hk _ => hk⟩

/-- Additions of sound bits alone. -/
lemma of_heap (hb : c.builder.Orderly t n p) (hgrows : c.heap.Grows (·.Sound t c.builder) h') :
    c.Reaches t n n p N { c with heap := h' } :=
  ⟨.refl hb, hgrows, fun _ hk _ => hk⟩

lemma refl (hb : c.builder.Orderly t n p) : c.Reaches t n n p N c := of_builder (.refl hb)

lemma trans {l : ℕ} (hr : c.Reaches t n m p N c') (hr' : c'.Reaches t m l p' N c'') :
    c.Reaches t n l p' N c'' where
  builder := hr.builder.trans hr'.builder
  heap :=
    { shape := hr.heap.shape.trans hr'.heap.shape
      bits := fun w x hx => (hr'.heap.bits w x hx).elim
        (fun hx => (hr.heap.bits w x hx).imp_right fun hsound => hsound.mono hr'.builder.later) .inr
      keeps := fun w x hx => hr'.heap.keeps w x (hr.heap.keeps w x hx) }
  uses k hk hby := hr'.uses k (hr.uses k hk fun w x hx => hby w x (hr'.heap.keeps w x hx)) hby

lemma mono (hr : c.Reaches t n m p N c') (hsub : N ⊆ N') : c.Reaches t n m p N' c' :=
  { hr with builder := hr.builder.mono hsub }

lemma quiet (hr : c.Reaches t n m p ∅ c') : c.Reaches t n m p N c' := hr.mono (Set.empty_subset N)

lemma record {id : SignalId} {part : PartialProduct} (hr : c.Reaches t n m p N c') :
    c.Reaches t n m p N { c' with parts := c'.parts.insert id part } :=
  ⟨hr.builder, hr.heap, hr.uses⟩

/-- A sound heap stays sound. -/
lemma sound (hr : c.Reaches t n m p N c') (hc : c.heap.Sound t n c.builder) :
    c'.heap.Sound t m c'.builder where
  bits w x hx := (hr.heap.bits w x hx).elim (fun hx => (hc.bits w x hx).mono hr.builder.later) id
  uses k hby := hr.uses k (hc.uses k fun w x hx => hby w x (hr.heap.keeps w x hx)) hby

end Contribution.Reaches

namespace Contributing

variable {β : Type} {E : BuildError → Prop} {R : β → Contribution → Prop}

lemma build_bind {step : Build α} {f : α → Contributing β} {Q : α → Builder → Prop}
    (hstep : Comes E Q (step c.builder))
    (hf : ∀ a b', Q a b' → Comes E R (f a { c with builder := b' })) :
    Comes E R ((build step >>= f) c) := by
  refine Comes.bind (Q := fun a c' => ∃ b', Q a b' ∧ c' = { c with builder := b' }) ?_ ?_
  · rw [build]
    dsimp only
    cases hresult : step c.builder with
    | ok a b' =>
      rw [hresult] at hstep
      exact ⟨b', hstep, rfl⟩
    | error e b' =>
      rw [hresult] at hstep
      exact hstep
  · rintro a - ⟨b', hb', rfl⟩
    exact hf a b' hb'

lemma heap_comes {step : Schedule → Heaping α} {Q : α → BitHeap → Prop}
    (hstep : Comes E Q (step c.builder.schedule c.heap)) :
    Comes E (fun a c' => ∃ h', Q a h' ∧ c' = { c with heap := h' }) (heap step c) := by
  rw [heap]
  dsimp only
  cases hresult : step c.builder.schedule c.heap with
  | ok a h' =>
    rw [hresult] at hstep
    exact ⟨h', hstep, rfl⟩
  | error e h' =>
    rw [hresult] at hstep
    exact hstep

/-- A one is a sound bit, wherever it is added. -/
lemma addOne_comes (hb : c.builder.Orderly t n p) (weight : ℤ) :
    Comes (BuildError.Due t excused) (fun _ c' => c.Reaches t n n p N c')
      (heap (fun _ => Heaping.addOne weight) c) := by
  refine (heap_comes (Heaping.addOne_comes (P := (·.Sound t c.builder)))).imp ?_
  rintro - - - ⟨h', hgrows, rfl⟩
  exact .of_heap hb hgrows

end Contributing

namespace Site

open Contributing (build_bind heap_comes)

variable {s : Site} {id : SignalId} {g : Signal} {index : ℕ}

/-- A bit that its signal has can be added as a bit of the product. -/
lemma addBit_comes {r : BitRef} (hb : c.builder.Orderly s.target n p)
    (hg : c.builder.schedule.signal? r.signal = some g) (hindex : r.index < g.width) :
    Comes (BuildError.Due s.target excused)
      (fun _ c' => ∃ h', c' = { c with heap := h' } ∧
        c.heap.Grows (·.Sound s.target c.builder) h' ∧
        (c.heap.Takes (s.base + weight) → ∃ w, ∃ x ∈ h'.column w, x.cycle = g.cycle))
      (s.addBit r weight c) := by
  have hsound : ∀ w, HeapBit.Sound s.target c.builder ⟨.bit r, w, g.cycle, g.criticalPath⟩ :=
    fun _ => ⟨⟨g, hg, le_rfl⟩, hb.signals g (Array.mem_of_getElem? hg)⟩
  have hget : s.addBit r weight c =
      (if wrapSigned64 (s.base + weight) < c.heap.lsbWeight then pure ()
        else Contributing.heap fun schedule => do
          Heaping.addSignalBit schedule (wrapSigned64 (s.base + weight)) r
          if r.negated then Heaping.addSignExtension (wrapSigned64 (s.base + weight))) c := rfl
  rw [hget]
  generalize hw : wrapSigned64 (s.base + weight) = placed
  have htakes : c.heap.Takes (s.base + weight) →
      c.heap.overflow = .reject ∧ c.heap.lsbWeight ≤ placed := by
    rw [BitHeap.Takes, hw]
    exact id
  by_cases hlow : placed < c.heap.lsbWeight
  · rw [if_pos hlow]
    exact ⟨c.heap, rfl, .refl _, fun hin => absurd (htakes hin).2 (Int.not_le.mpr hlow)⟩
  · rw [if_neg hlow]
    suffices hheap : Comes (BuildError.Due s.target excused)
        (fun _ h' => c.heap.Grows (·.Sound s.target c.builder) h' ∧
          (c.heap.overflow = .reject → ∃ w, ∃ x ∈ h'.column w, x.cycle = g.cycle))
        ((do
          Heaping.addSignalBit c.builder.schedule placed r
          if r.negated then Heaping.addSignExtension placed : Heaping Unit) c.heap) by
      refine (heap_comes hheap).imp ?_
      rintro - c' - ⟨h', ⟨hgrows, hthere⟩, hc⟩
      exact ⟨h', hc, hgrows, fun hin => hthere (htakes hin).1⟩
    refine (Heaping.addSignalBit_comes hg hindex hsound).bind ?_
    rintro _ h₁ ⟨hgrows, hthere⟩
    split_ifs
    · refine Heaping.addOnes_comes.imp fun _ h₂ _ hgrows' =>
        ⟨hgrows.trans hgrows', fun hreject => ?_⟩
      obtain ⟨w, x, hx, hcycle⟩ := hthere hreject
      exact ⟨w, x, hgrows'.keeps w x hx, hcycle⟩
    · exact .pure ⟨hgrows, hthere⟩

/-- So can some bits. Those that the heap takes are there with the signal. -/
lemma addBits_comes {negative : ℕ → Bool} (hb : c.builder.Orderly s.target n p)
    (hg : c.builder.schedule.signal? id = some g) (hindex : index + count ≤ g.width) :
    Comes (BuildError.Due s.target excused)
      (fun _ c' => c.Reaches s.target n n p N c' ∧
        ∀ i < count, c.heap.Takes (s.base + (weight + i)) →
          ∃ w, ∃ x ∈ c'.heap.column w, x.cycle = g.cycle)
      (s.addBits id negative weight index count c) := by
  suffices hheap : Comes (BuildError.Due s.target excused)
      (fun _ c' => ∃ h', c' = { c with heap := h' } ∧
        c.heap.Grows (·.Sound s.target c.builder) h' ∧
        ∀ i < count, c.heap.Takes (s.base + (weight + i)) →
          ∃ w, ∃ x ∈ h'.column w, x.cycle = g.cycle)
      (s.addBits id negative weight index count c) by
    refine hheap.imp ?_
    rintro - - - ⟨h', rfl, hgrows, htaken⟩
    exact ⟨.of_heap hb hgrows, htaken⟩
  induction count generalizing c weight index with
  | zero => exact .pure ⟨c.heap, rfl, .refl _, by simp⟩
  | succ count ih =>
    have hlt : index < g.width := by omega
    refine (addBit_comes (r := ⟨id, index, negative index⟩) hb hg hlt).bind ?_
    rintro - - ⟨h₁, rfl, hgrows, hfirst⟩
    refine (ih (c := { c with heap := h₁ }) hb hg (by omega)).imp ?_
    rintro - - - ⟨h₂, rfl, hgrows', hrest⟩
    refine ⟨h₂, rfl, hgrows.trans hgrows', fun i hi htakes => ?_⟩
    cases i with
    | zero =>
      obtain ⟨w, x, hx, hcycle⟩ := hfirst (by simpa using htakes)
      exact ⟨w, x, hgrows'.keeps w x hx, hcycle⟩
    | succ i =>
      refine hrest i (by omega) (BitHeap.takes_of_sameShape hgrows.shape ?_)
      rwa [show weight + 1 + (i : ℤ) = weight + (i + 1 : ℕ) by omega]

lemma addOperand_comes {signed : Bool} (hb : c.builder.Orderly s.target n p)
    (hg : c.builder.schedule.signal? id = some g) :
    Comes (BuildError.Due s.target excused)
      (fun _ c' => c.Reaches s.target n n p N c' ∧
        ∀ i < g.width, c.heap.Takes (s.base + (weight + i)) →
          ∃ w, ∃ x ∈ c'.heap.column w, x.cycle = g.cycle)
      (s.addOperand id weight signed c) := by
  refine build_bind (Build.signal_comes hg) ?_
  rintro _ _ ⟨rfl, rfl⟩
  exact addBits_comes hb hg (Nat.zero_add _).le

/-! ### Rows, one table and one block -/

/-- Both operands are there when the multiplication starts. -/
structure Ready (s : Site) (n : ℕ) (b : Builder) : Prop where
  x : b.Has s.x s.start.cycle
  y : b.Has s.y s.start.cycle
  admits : s.target.Admits s.start
  started : s.start.cycle ≤ n

lemma Ready.mono {b b' : Builder} (hs : s.Ready n b) (hle : b ≤ b') : s.Ready n b' :=
  { hs with x := hs.x.mono hle, y := hs.y.mono hle }

lemma Ready.of_le {b : Builder} (hs : s.Ready n b) (hle : n ≤ m) : s.Ready m b :=
  { hs with started := hs.started.trans hle }

lemma readOperands_comes {b : Builder} (hb : b.Orderly s.target n p) (hs : s.Ready n b) :
    Comes (BuildError.Due s.target excused) (fun _ b' => b.Reaches s.target n s.start ∅ b')
      (s.readOperands b) := by
  refine (Build.moveTo_comes hb hs.admits).bind fun _ b₁ h₁ => ?_
  refine (Build.read_comes h₁.orderly (hs.x.mono h₁.later) hs.started).bind fun _ b₂ h₂ => ?_
  have h₂ := h₁.trans h₂
  refine (Build.read_comes h₂.orderly (hs.y.mono h₂.later) hs.started).bind fun _ b₃ h₃ => .pure ?_
  exact h₂.trans h₃

lemma addRow_comes {j : ℕ} (hb : c.builder.Orderly s.target n p)
    (hfree : c.builder.Free (Below (path s.tag) (Numbered ["pp"] (· = j)))) :
    Comes (BuildError.Due s.target excused)
      (fun _ c' => c.Reaches s.target n n p (Below (path s.tag) (Numbered ["pp"] (· = j))) c')
      (s.addRow j c) := by
  refine build_bind (Build.declare_comes (N := Below (path s.tag) (Numbered ["pp"] (· = j))) hb
    ⟨"pp".toList ++ digits j, by simp [Numbered, Worded],
      by simp [Under, path, toString, Datapath.cut]⟩ hfree) ?_
  rintro row b₁ ⟨-, ⟨g, hg, hwidth⟩, h₁⟩
  let c₁ : Contribution := ⟨b₁, c.heap, c.parts.insert row (.row j)⟩
  have hc₁ : c.Reaches s.target n n p (Below (path s.tag) (Numbered ["pp"] (· = j))) c₁ :=
    (Contribution.Reaches.of_builder h₁).record
  have hindex : 0 + s.wx ≤ g.width := by rw [Nat.zero_add, hwidth]
  exact (addBits_comes (c := c₁) h₁.orderly hg hindex).imp fun _ _ _ hr => hc₁.trans hr.1

lemma addRowsFrom_comes {j : ℕ} (hb : c.builder.Orderly s.target n p)
    (hfree : c.builder.Free (Below (path s.tag) (Numbered ["pp"] (j ≤ ·)))) :
    Comes (BuildError.Due s.target excused)
      (fun _ c' => c.Reaches s.target n n p (Below (path s.tag) (Numbered ["pp"] (j ≤ ·))) c')
      (s.addRowsFrom j count c) := by
  induction count generalizing c j with
  | zero => exact .pure (.refl hb)
  | succ count ih =>
    refine (addRow_comes hb hfree.first).bind fun _ c₁ h₁ => ?_
    refine (ih h₁.builder.orderly (h₁.builder.free_rest hfree)).imp fun _ c₂ _ h₂ => ?_
    exact (h₁.mono (numbered_subset (List.Subset.refl _) fun _ hk => hk.ge)).trans
      (h₂.mono (numbered_subset (List.Subset.refl _) fun _ hk => (Nat.le_succ j).trans hk))

/-- A product of rows fills the heap. -/
lemma addRows_comes (hb : c.builder.Orderly s.target n p) (hs : s.Ready n c.builder)
    (hfree : c.builder.Free (Below (path s.tag) (Worded ["pp"]))) :
    Comes (BuildError.Due s.target excused)
      (fun _ c' => ∃ p', c.Reaches s.target n n p' (Below (path s.tag) (Worded ["pp"])) c')
      (s.addRows c) := by
  have hadvance : Comes (BuildError.Due s.target excused)
      (fun _ b' => ∃ p', c.builder.Reaches s.target n p' ∅ b')
      ((do
        s.readOperands
        let _ ← Build.advance (s.target.wireDelay s.wx + s.target.lutDelay) "partial product row"
        : Build Unit) c.builder) := by
    refine (readOperands_comes hb hs).bind fun _ b₁ h₁ => ?_
    refine (Build.advance_comes h₁.orderly).bind ?_
    rintro _ b₂ ⟨p', -, -, h₂⟩
    exact .pure ⟨p', h₁.trans h₂⟩
  refine build_bind hadvance ?_
  rintro _ b₁ ⟨p', h₁⟩
  refine (addRowsFrom_comes (c := { c with builder := b₁ }) (j := 0) h₁.orderly
    (h₁.free (hfree.mono numbered_subset_worded) (Set.disjoint_empty _))).imp fun _ c₂ _ h₂ => ?_
  exact ⟨p', (Contribution.Reaches.of_builder h₁.quiet).trans (h₂.mono numbered_subset_worded)⟩

/-- So does a product that some element makes. -/
lemma addMade_comes {step : Build SignalId} {signed : Bool} (part : SignalId → PartialProduct)
    (hstep : Comes (BuildError.Due s.target excused)
      (fun out b' => ∃ p', (∃ g, b'.schedule.signal? out = some g) ∧
        c.builder.Reaches s.target n p' N b')
      (step c.builder)) :
    Comes (BuildError.Due s.target excused) (fun _ c' => ∃ p', c.Reaches s.target n n p' N c')
      ((do
        let out ← Contributing.build step
        Contributing.record out (part out)
        s.addOperand out 0 signed : Contributing Unit) c) := by
  refine build_bind hstep ?_
  rintro out b₁ ⟨p', ⟨g, hg⟩, h₁⟩
  let c₁ : Contribution := ⟨b₁, c.heap, c.parts.insert out (part out)⟩
  have hc₁ : c.Reaches s.target n n p' N c₁ := (Contribution.Reaches.of_builder h₁).record
  exact (addOperand_comes (c := c₁) h₁.orderly hg).imp fun _ _ _ hr => ⟨p', hc₁.trans hr.1⟩

lemma addTable_comes (hb : c.builder.Orderly s.target n p) (hs : s.Ready n c.builder)
    (hfree : c.builder.Free (Below (path s.tag) (Worded ["tbl"]))) :
    Comes (BuildError.Due s.target excused)
      (fun _ c' => ∃ p', c.Reaches s.target n n p' (Below (path s.tag) (Worded ["tbl"])) c')
      (s.addTable c) := by
  have hunder : Below (path s!"{s.tag}_tbl") (Worded ["XY", "RR"]) ⊆
      Below (path s.tag) (Worded ["tbl"]) := by
    have hpath : path s!"{s.tag}_tbl" = path s.tag ++ ["tbl".toList] := by
      simp [path, toString, Datapath.cut]
    exact below_subset_under.trans (under_subset_below hpath (by simp [Worded]))
  refine build_bind (Build.ofExcept_comes fun e he => ProductTable.due_of_make he) ?_
  rintro table _ ⟨-, rfl⟩
  refine addMade_comes (fun _ => .table table (.plain 0 s.wx) (.plain 0 s.wy)) ?_
  refine (Build.moveTo_comes hb hs.admits).bind fun _ b₁ h₁ => ?_
  have hs := hs.mono h₁.later
  refine (placeTable_comes h₁.orderly hs.started hs.x hs.y
    (h₁.free (hfree.mono hunder) (Set.disjoint_empty _))).imp ?_
  rintro out b₂ _ ⟨p', -, -, ⟨g, hg, -⟩, -, h₂⟩
  exact ⟨p', ⟨g, hg⟩, h₁.quiet.trans (h₂.mono hunder)⟩

lemma addBlock_comes {wx wy : ℕ} (hb : c.builder.Orderly s.target n p) (hs : s.Ready n c.builder)
    (hwx : c.builder.HasWidth s.x wx) (hwy : c.builder.HasWidth s.y wy)
    (hfree : c.builder.Free (Below (path s.tag) (Worded ["dsp"]))) :
    Comes (BuildError.Due s.target excused)
      (fun _ c' => ∃ p', c.Reaches s.target n n p' (Below (path s.tag) (Worded ["dsp"])) c')
      (s.addBlock c) := by
  have hunder : Below (path s!"{s.tag}_dsp") (Worded ["R"]) ⊆
      Below (path s.tag) (Worded ["dsp"]) := by
    have hpath : path s!"{s.tag}_dsp" = path s.tag ++ ["dsp".toList] := by
      simp [path, toString, Datapath.cut]
    exact below_subset_under.trans (under_subset_below hpath (by simp [Worded]))
  refine addMade_comes (fun _ => .block (.plain 0 s.wx) (.plain 0 s.wy) s.signed) ?_
  refine (Build.moveTo_comes hb hs.admits).bind fun _ b₁ h₁ => ?_
  have hs := hs.mono h₁.later
  refine (placeBlock_comes h₁.orderly hs.started hs.x hs.y (hwx.mono h₁.later) (hwy.mono h₁.later)
    (h₁.free (hfree.mono hunder) (Set.disjoint_empty _))).imp ?_
  rintro out b₂ _ ⟨p', -, -, ⟨g, hg, -⟩, -, h₂⟩
  exact ⟨p', ⟨g, hg⟩, h₁.quiet.trans (h₂.mono hunder)⟩

end Site

/-! ### Tables for pieces -/

/-- The names with some word that pairs of pieces have. -/
def cellNames (tag word : String) (pairs : List (ℕ × ℕ)) : Set String :=
  {name | ∃ q ∈ pairs, path name = path tag ++ [word.toList, digits q.1, digits q.2]}

section

variable {tag word : String} {pairs pairs' : List (ℕ × ℕ)}

lemma cellNames_subset (h : pairs ⊆ pairs') :
    cellNames tag word pairs ⊆ cellNames tag word pairs' :=
  fun _ ⟨q, hq, hname⟩ => ⟨q, h hq, hname⟩

lemma cellNames_subset_worded (hword : Worded [word] word.toList) :
    cellNames tag word pairs ⊆ Below (path tag) (Worded [word]) := by
  rintro name ⟨q, -, hname⟩
  refine ⟨word.toList, hword, ?_⟩
  change path tag ++ [word.toList] <+: path name
  rw [hname]
  exact ⟨[digits q.1, digits q.2], by simp⟩

/-- Different pairs have different names. -/
lemma cellNames_disjoint {q : ℕ × ℕ} (h : q ∉ pairs) :
    Disjoint (cellNames tag word pairs) (cellNames tag word [q]) := by
  rw [Set.disjoint_left]
  rintro name ⟨q₁, hq₁, hname₁⟩ ⟨q₂, hq₂, hname₂⟩
  rw [List.mem_singleton] at hq₂
  subst hq₂
  rw [hname₁] at hname₂
  have hsame : q₁ = q₂ := by simpa [Prod.ext_iff] using hname₂
  exact h (hsame ▸ hq₁)

end

/-- The input of a table is there by cycle `k`, and the bits that count are bits
of its output. -/
structure TableCell.Sound (b : Builder) (k : ℕ) (cell : TableCell) : Prop where
  input : b.Has cell.input k
  bits : cell.bits ≤ cell.table.wOut

lemma TableCell.Sound.mono {b b' : Builder} {cell : TableCell} (h : cell.Sound b k) (hle : b ≤ b') :
    cell.Sound b' k :=
  ⟨h.input.mono hle, h.bits⟩

/-- The pair of pieces that a table is for. -/
def TableCell.pair (cell : TableCell) : ℕ × ℕ := (cell.column, cell.row)

namespace Site

open Contributing (build_bind)

variable {s : Site} {b : Builder} {tag : String} {sx sy : Side}

lemma prepareCell_comes {i j : ℕ} (hb : b.Orderly t n p)
    (hfree : b.Free (cellNames tag "XY" [(i, j)])) :
    Comes (BuildError.Due t excused)
      (fun cell b' => cell.pair = (i, j) ∧ cell.Sound b' p.cycle ∧
        b.Reaches t n p (cellNames tag "XY" [(i, j)]) b')
      (prepareCell tag sx sy i j b) := by
  refine Build.ofExcept_bind (fun e he => ProductTable.due_of_make he) fun table htable => ?_
  obtain ⟨rfl, -⟩ := ProductTable.make_eq_ok htable
  refine (Build.declare_comes (N := cellNames tag "XY" [(i, j)]) hb
    ⟨(i, j), by simp, by simp [path, toString, Datapath.cut]⟩ hfree).bind ?_
  rintro input b₁ ⟨hinput, -, h₁⟩
  exact .pure ⟨rfl, ⟨hinput.has, (Nat.sub_le _ _).trans (Nat.sub_le _ _)⟩, h₁⟩

lemma prepareCells_comes {pairs : List (ℕ × ℕ)} (hb : b.Orderly t n p) (hnodup : pairs.Nodup)
    (hfree : b.Free (cellNames tag "XY" pairs)) :
    Comes (BuildError.Due t excused)
      (fun cells b' => cells.map TableCell.pair = pairs ∧ (∀ cell ∈ cells, cell.Sound b' p.cycle) ∧
        b.Reaches t n p (cellNames tag "XY" pairs) b')
      (prepareCells tag sx sy pairs b) := by
  induction pairs generalizing b with
  | nil => exact .pure ⟨rfl, by simp, .refl hb⟩
  | cons q pairs ih =>
    obtain ⟨hq, hnodup⟩ := List.nodup_cons.mp hnodup
    have hfirst : cellNames tag "XY" [q] ⊆ cellNames tag "XY" (q :: pairs) :=
      cellNames_subset (by simp)
    have hrest : cellNames tag "XY" pairs ⊆ cellNames tag "XY" (q :: pairs) :=
      cellNames_subset (List.subset_cons_self q pairs)
    refine (prepareCell_comes hb (hfree.mono hfirst)).bind ?_
    rintro cell b₁ ⟨hpair, hcell, h₁⟩
    refine (ih h₁.orderly hnodup (h₁.free (hfree.mono hrest) (cellNames_disjoint hq))).bind ?_
    rintro cells b₂ ⟨hpairs, hcells, h₂⟩
    refine .pure ⟨?_, List.forall_mem_cons.mpr ⟨hcell.mono h₂.later, hcells⟩,
      (h₁.mono hfirst).trans (h₂.mono hrest)⟩
    rw [List.map_cons, hpair, hpairs]

lemma defineTable_comes {table : ProductTable} (hb : b.Orderly t n p) :
    Comes (BuildError.Due t excused) (fun _ b' => b'.Defines table.name ∧ b.Reaches t n p ∅ b')
      (defineTable t table b) := by
  refine Build.ofExcept_bind (fun e he => ProductTable.due_of_component he) fun c hc => ?_
  obtain ⟨helement, hname⟩ := ProductTable.isElement_of_component hc
  rw [← hname]
  exact Build.addSubcomponent_comes hb helement

/-- The entry of a table that is defined can be added. -/
lemma addCell_comes {corner : ℕ} {cell : TableCell} (hb : c.builder.Orderly s.target n p)
    (hn : p.cycle ≤ n) (hcell : cell.Sound c.builder p.cycle)
    (hdefines : c.builder.Defines cell.table.name)
    (hfree : c.builder.Free (cellNames tag "PP" [cell.pair])) :
    Comes (BuildError.Due s.target excused)
      (fun _ c' => c.Reaches s.target n n p (cellNames tag "PP" [cell.pair]) c')
      (s.addCell tag corner cell c) := by
  have hplace : Comes (BuildError.Due s.target excused)
      (fun out b' => (∃ g, b'.schedule.signal? out = some g ∧ cell.bits ≤ g.width) ∧
        c.builder.Reaches s.target n p (cellNames tag "PP" [cell.pair]) b')
      ((do
        let use ← Build.read cell.input
        let out ← Build.declare s!"{tag}_PP_{cell.column}_{cell.row}" cell.table.wOut
        let _ ← Build.instantiate cell.table.name s!"{tag}_PPTbl_{cell.column}_{cell.row}"
          [.signal "X" use]
        return out : Build SignalId) c.builder) := by
    refine (Build.read_comes hb hcell.input hn).bind fun use b₁ h₁ => ?_
    refine (Build.declare_comes (N := cellNames tag "PP" [cell.pair]) h₁.orderly
      ⟨cell.pair, by simp, by simp [TableCell.pair, path, toString, Datapath.cut]⟩
      (h₁.free hfree (Set.disjoint_empty _))).bind ?_
    rintro out b₂ ⟨-, hwidth, h₂⟩
    have hdefines := h₂.defines _ (h₁.defines _ hdefines)
    have h₂ := h₁.quiet.trans h₂
    have hports : ∀ q ∈ [PortBinding.signal "X" use], q.formal ∈ formals cell.table.name := by
      simp [ProductTable.formals_name]
    refine (Build.instantiate_comes h₂.orderly hdefines hports).bind fun _ b₃ h₃ => .pure ?_
    obtain ⟨g, hg, hwidth⟩ := hwidth.mono h₃.later
    exact ⟨⟨g, hg, hcell.bits.trans hwidth.ge⟩, h₂.trans h₃.quiet⟩
  refine build_bind hplace ?_
  rintro out b₁ ⟨⟨g, hg, hbits⟩, h₁⟩
  let c₁ : Contribution := ⟨b₁, c.heap, c.parts.insert out (.table cell.table cell.x cell.y)⟩
  have hc₁ : c.Reaches s.target n n p (cellNames tag "PP" [cell.pair]) c₁ :=
    (Contribution.Reaches.of_builder h₁).record
  have hindex : 0 + cell.bits ≤ g.width := by rwa [Nat.zero_add]
  exact (addBits_comes (c := c₁) h₁.orderly hg hindex).imp fun _ _ _ hr => hc₁.trans hr.1

lemma addCells_comes {corner : ℕ} {defined : List ProductTable} {cells : List TableCell}
    (hb : c.builder.Orderly s.target n p) (hn : p.cycle ≤ n)
    (hcells : ∀ cell ∈ cells, cell.Sound c.builder p.cycle)
    (hdefined : ∀ table ∈ defined, c.builder.Defines table.name)
    (hnodup : (cells.map TableCell.pair).Nodup)
    (hfree : c.builder.Free (cellNames tag "PP" (cells.map TableCell.pair))) :
    Comes (BuildError.Due s.target excused)
      (fun _ c' => c.Reaches s.target n n p (cellNames tag "PP" (cells.map TableCell.pair)) c')
      (s.addCells tag corner defined cells c) := by
  induction cells generalizing c defined with
  | nil => exact .pure (.refl hb)
  | cons cell cells ih =>
    obtain ⟨hcell, hcells⟩ := List.forall_mem_cons.mp hcells
    obtain ⟨hpair, hnodup⟩ := List.nodup_cons.mp hnodup
    have hfirst : cellNames tag "PP" [cell.pair] ⊆
        cellNames tag "PP" ((cell :: cells).map TableCell.pair) := cellNames_subset (by simp)
    have hrest : cellNames tag "PP" (cells.map TableCell.pair) ⊆
        cellNames tag "PP" ((cell :: cells).map TableCell.pair) :=
      cellNames_subset (List.subset_cons_self _ _)
    -- both branches go on with a table that is defined
    have hgo : ∀ b₁, b₁.Defines cell.table.name → c.builder.Reaches s.target n p ∅ b₁ →
        Comes (BuildError.Due s.target excused)
          (fun _ c' => c.Reaches s.target n n p
            (cellNames tag "PP" ((cell :: cells).map TableCell.pair)) c')
          ((do
            s.addCell tag corner cell
            s.addCells tag corner (defined.insert cell.table) cells : Contributing Unit)
            { c with builder := b₁ }) := by
      intro b₁ hdefines h₁
      have hfree₁ := h₁.free hfree (Set.disjoint_empty _)
      refine (addCell_comes (c := { c with builder := b₁ }) h₁.orderly hn (hcell.mono h₁.later)
        hdefines (hfree₁.mono hfirst)).bind fun _ c₂ h₂ => ?_
      have hdefined : ∀ table ∈ defined.insert cell.table, c₂.builder.Defines table.name := by
        intro table htable
        obtain rfl | htable := List.mem_insert_iff.mp htable
        · exact h₂.builder.defines _ hdefines
        · exact h₂.builder.defines _ (h₁.defines _ (hdefined table htable))
      refine (ih h₂.builder.orderly
        (fun cell hcell => ((hcells cell hcell).mono h₁.later).mono h₂.builder.later) hdefined
        hnodup (h₂.builder.free (hfree₁.mono hrest) (cellNames_disjoint hpair))).imp
        fun _ c₃ _ h₃ => ?_
      exact (Contribution.Reaches.of_builder h₁.quiet).trans
        ((h₂.mono hfirst).trans (h₃.mono hrest))
    rw [addCells]
    by_cases htable : cell.table ∈ defined
    · rw [if_neg (not_not.mpr htable)]
      exact hgo c.builder (hdefined _ htable) (.refl hb)
    · rw [if_pos htable]
      refine build_bind (defineTable_comes hb) ?_
      rintro _ b₁ ⟨hdefines, h₁⟩
      exact hgo b₁ hdefines h₁

/-- No pair of pieces comes twice. -/
lemma nodup_pairs (rows columns : ℕ) :
    ((List.range rows).flatMap fun j => (List.range columns).map fun i => (i, j)).Nodup := by
  refine List.nodup_flatMap.mpr ⟨fun j _ => List.nodup_range.map fun i i' h => ?_, ?_⟩
  · exact congrArg Prod.fst h
  · refine List.nodup_range.imp fun {j j'} hne => ?_
    rw [Function.onFun, List.disjoint_left]
    rintro q hq hq'
    obtain ⟨i, -, rfl⟩ := List.mem_map.mp hq
    obtain ⟨i', -, heq⟩ := List.mem_map.mp hq'
    exact hne (congrArg Prod.snd heq).symm

/-- All tables of a rectangle are prepared when the multiplication starts. -/
lemma prepareAll_comes {pairs : List (ℕ × ℕ)} {delay : List TableCell → Delay} {what : String}
    (hb : b.Orderly s.target n p) (hs : s.Ready n b) (hstart : s.start.Unspent)
    (hnodup : pairs.Nodup) (hfree : b.Free (cellNames tag "XY" pairs)) :
    Comes (BuildError.Due s.target excused)
      (fun cells b' => ∃ p', p'.cycle = s.start.cycle ∧ cells.map TableCell.pair = pairs ∧
        (∀ cell ∈ cells, cell.Sound b' p'.cycle) ∧
        b.Reaches s.target n p' (cellNames tag "XY" pairs) b')
      ((do
        s.readOperands
        let cells ← prepareCells tag sx sy pairs
        let _ ← Build.advance (delay cells) what
        return cells : Build (List TableCell)) b) := by
  refine (readOperands_comes hb hs).bind fun _ b₁ h₁ => ?_
  refine (prepareCells_comes h₁.orderly hnodup (h₁.free hfree (Set.disjoint_empty _))).bind ?_
  rintro cells b₂ ⟨hpairs, hcells, h₂⟩
  refine (Build.advance_comes h₂.orderly).bind ?_
  rintro _ b₃ ⟨p', -, hstays, h₃⟩
  refine .pure ?_
  have hcycle := hstays hstart
  refine ⟨p', hcycle, hpairs, fun cell hcell => ?_, h₁.quiet.trans (h₂.trans h₃.quiet)⟩
  rw [hcycle]
  exact (hcells cell hcell).mono h₃.later

/-- A rectangle of tables fills the heap. -/
lemma addTables_comes {region : Tiling.Rect} (hb : c.builder.Orderly s.target n p)
    (hs : s.Ready n c.builder) (hstart : s.start.Unspent)
    (hfree : c.builder.Free (Below (path s.tag) (Numbered ["t"] (c.builder.nextUid ≤ ·)))) :
    Comes (BuildError.Due s.target excused)
      (fun _ c' => ∃ p', c.Reaches s.target n n p' (Below (path s.tag) (Worded ["t"])) c' ∧
        c'.builder.Free (Below (path s.tag) (Numbered ["t"] (c'.builder.nextUid ≤ ·))))
      (s.addTables region c) := by
  rw [addTables]
  split_ifs with harea
  · exact .pure ⟨p, .refl hb, hfree⟩
  refine build_bind (Build.uniqueId_comes hb) ?_
  rintro k b₁ ⟨hk, hnext, h₁⟩
  have hunder : Under (path s!"{s.tag}_t{k}") ⊆ Below (path s.tag) (Numbered ["t"] (· = k)) := by
    have hpath : path s!"{s.tag}_t{k}" = path s.tag ++ ["t".toList ++ digits k] := by
      simp [path, toString, Datapath.cut]
    exact under_subset_below hpath (by simp [Numbered, Worded])
  have hfree₁ : b₁.Free (Under (path s!"{s.tag}_t{k}")) :=
    h₁.free (hfree.mono (hunder.trans (numbered_subset (List.Subset.refl _)
      fun _ hi => hk.ge.trans hi.ge))) (Set.disjoint_empty _)
  have hinput (pairs) : cellNames s!"{s.tag}_t{k}" "XY" pairs ⊆
      Below (path s!"{s.tag}_t{k}") (Worded ["XY"]) := cellNames_subset_worded (by simp [Worded])
  have hentry (pairs) : cellNames s!"{s.tag}_t{k}" "PP" pairs ⊆
      Below (path s!"{s.tag}_t{k}") (Worded ["PP"]) := cellNames_subset_worded (by simp [Worded])
  refine build_bind (prepareAll_comes h₁.orderly (hs.mono h₁.later) hstart (nodup_pairs _ _)
    (hfree₁.mono ((hinput _).trans below_subset_under))) ?_
  rintro cells b₂ ⟨p', hcycle, hpairs, hcells, h₂⟩
  have hfree₂ := h₂.free
    (hfree₁.mono ((hentry (cells.map TableCell.pair)).trans below_subset_under))
    ((worded_disjoint (by decide)).mono (hentry _) (hinput _))
  refine (addCells_comes (c := { c with builder := b₂ }) h₂.orderly (hcycle.trans_le hs.started)
    hcells (by simp) (hpairs ▸ nodup_pairs _ _) hfree₂).imp fun _ c₃ _ h₃ => ?_
  have hall : c.Reaches s.target n n p' (Below (path s.tag) (Numbered ["t"] (· = k))) c₃ :=
    (Contribution.Reaches.of_builder (h₁.quiet.trans
      (h₂.mono ((hinput _).trans (below_subset_under.trans hunder))))).trans
        (h₃.mono ((hentry _).trans (below_subset_under.trans hunder)))
  refine ⟨p', hall.mono numbered_subset_worded, hall.builder.free ?_ (numbered_disjoint ?_)⟩
  · exact hfree.mono (numbered_subset (List.Subset.refl _) fun _ hi => hall.builder.uids.trans hi)
  · have hlater : b₂.nextUid ≤ c₃.builder.nextUid := h₃.builder.uids
    have hbetween : b₁.nextUid ≤ b₂.nextUid := h₂.uids
    intro i hi
    omega

end Site

end Datapath
