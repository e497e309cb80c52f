/-
Compressions keep a construction in order.

* `HeapBit.Sound`: a bit is there where it says it is.
* `compressor_comes`: a compressor waits for its inputs; its outputs are sound,
  and its uses are over when they are there.
* `Carried`: bits that are left of others. They are no earlier, so a cycle by
  which they are there bounds the bits before them, too. This is what makes the
  uses in a round end before the rows are laid out (`reduceColumns_comes`,
  `reduceAll_comes`).
* `BitHeap.compress_comes`: a compression makes its sum behind all its uses.
-/
import Datapath.Proofs.Adder.Order
import Datapath.Proofs.BitHeap.Outcome

namespace Datapath

open Build

variable {t : Target} {n : ℕ} {p : Instant} {b b' : Builder} {excused : ConsistencyFault → Prop}
  {label tag : String} {N : Set String}

/-! ### Bits that are there -/

/-- A bit is there where it says it is, at a point in time of the target. -/
structure HeapBit.Sound (t : Target) (b : Builder) (x : HeapBit) : Prop where
  there : x.source.On (b.Has · x.cycle)
  admits : t.Admits x.ready

lemma HeapBit.Sound.mono {x : HeapBit} (h : x.Sound t b) (hle : b ≤ b') : x.Sound t b' :=
  ⟨h.there.mono fun _ hid => hid.mono hle, h.admits⟩

lemma HeapBit.sound_constantOne (w : ℕ) : (constantOne w).Sound t b :=
  ⟨trivial, Target.admits_start⟩

lemma le_allReady {bits : List HeapBit} : ∀ x ∈ bits, x.cycle ≤ (allReady bits).cycle :=
  (le_foldl_max _ bits 0).2

lemma admits_allReady {bits : List HeapBit} (h : ∀ x ∈ bits, x.Sound t b) :
    t.Admits (allReady bits) where
  fits := Target.fits_foldl _ (fun x hx => (h x (List.mem_of_mem_filter hx)).admits.fits)
    Target.fits_zero
  cycle hnone := Nat.le_zero.mp
    (foldl_max_le le_rfl fun x hx => ((h x hx).admits.cycle hnone).le)

/-- Sources that are there can be used. -/
lemma readSources_comes {sources : List BitSource} (hb : b.Orderly t n p) (hn : p.cycle ≤ n)
    (h : ∀ s ∈ sources, s.On (b.Has · p.cycle)) :
    Comes (BuildError.Due t excused) (fun _ b' => b.Reaches t n p ∅ b')
      (readSources sources b) := by
  induction sources generalizing b with
  | nil => exact .pure (.refl hb)
  | cons s sources ih =>
    obtain ⟨hs, hsources⟩ := List.forall_mem_cons.mp h
    cases s with
    | one => exact ih hb hsources
    | bit r =>
      refine (read_comes hb hs hn).bind fun _ b₁ h₁ => ?_
      refine (ih h₁.orderly fun s hs => (hsources s hs).mono fun _ hid => hid.mono h₁.later).imp
        fun _ b₂ _ h₂ => ?_
      exact h₁.trans h₂

/-! ### Compressors -/

lemma formals_compressorName (inputs : ℕ) : formals (compressorName inputs) = ["X0", "R"] := by
  simp [formals, compressorName, toString]

/-- The outputs of a compressor are sound, and no earlier than its inputs. -/
structure Compressed.Sound (t : Target) (b : Builder) (bits : List HeapBit) (c : Compressed) :
    Prop where
  sum : c.sum.Sound t b
  carry : c.carry.Sound t b
  after : ∀ x ∈ bits, x.cycle ≤ c.sum.cycle

/-- A compressor waits for its inputs, and its uses are over when its outputs
are there. -/
lemma compressor_comes {w : ℕ} {inputs : List HeapBit} (hb : b.Orderly t n p)
    (hinputs : ∀ x ∈ inputs, x.Sound t b) (hfree : b.Free (Under (path label))) :
    Comes (BuildError.Due t excused)
      (fun c b' => c.Sound t b' inputs ∧
        ∃ p', b.Reaches t (max n c.sum.cycle) p' (Under (path label)) b')
      (compressor t label w inputs b) := by
  set ready := allReady inputs with hready
  refine (moveTo_comes hb (admits_allReady hinputs)).bind fun _ b₁ h₁ => ?_
  have hsources : ∀ s ∈ inputs.map (·.source), s.On (b₁.Has · ready.cycle) := by
    intro s hs
    obtain ⟨x, hx, rfl⟩ := List.mem_map.mp hs
    exact (hinputs x hx).there.mono fun _ hid => (hid.mono h₁.later).of_le (le_allReady x hx)
  have h₁ := h₁.of_le (le_max_left n ready.cycle)
  refine (readSources_comes h₁.orderly (le_max_right _ _) hsources).bind fun _ b₂ h₂ => ?_
  have h₂ : b.Reaches t (max n ready.cycle) ready (Below (path label) (Worded [])) b₂ :=
    (h₁.trans h₂).quiet
  refine (declare_comes (N := Below (path label) (Worded ["In"])) h₂.orderly
    (mem_worded (by decide))
    (h₂.free (hfree.mono below_subset_under) (worded_disjoint (by decide)))).bind ?_
  rintro input b₃ ⟨hinput, -, h₃⟩
  have h₃ := h₂.append h₃
  refine (advance_comes h₃.orderly).bind ?_
  rintro _ b₄ ⟨q, hle, -, h₄⟩
  have hinput := (hinput.mono h₄.later).has.of_le hle
  have h₄ := (h₃.trans h₄.quiet).of_le (max_le_max_left n hle)
  refine (read_comes h₄.orderly hinput (le_max_right _ _)).bind fun x b₅ h₅ => ?_
  have h₅ := h₄.trans h₅.quiet
  refine (declare_comes (N := Below (path label) (Worded ["Out"])) h₅.orderly
    (mem_worded (by decide))
    (h₅.free (hfree.mono below_subset_under) (worded_disjoint (by decide)))).bind ?_
  rintro output b₆ ⟨houtput, -, h₆⟩
  have h₆ := h₅.append h₆
  refine (read_comes h₆.orderly houtput.has (le_max_right _ _)).bind fun r b₇ h₇ => ?_
  have houtput := houtput.mono h₇.later
  have h₇ := h₆.trans h₇.quiet
  have helement : (Component.primitive (compressorName inputs.length) [("X0", inputs.length)]
      [("R", 2)]).IsElement t :=
    Component.primitive_isElement (.compressor _) (by simp [formals_compressorName])
  refine (addSubcomponent_comes h₇.orderly helement).bind ?_
  rintro _ b₈ ⟨hdefines, h₈⟩
  have houtput := houtput.mono h₈.later
  have h₈ := h₇.trans h₈.quiet
  have hports : ∀ q ∈ [PortBinding.signal "X0" x, .signal "R" r],
      q.formal ∈ formals (compressorName inputs.length) := by simp [formals_compressorName]
  refine (instantiate_comes h₈.orderly hdefines hports).bind
    fun _ b₉ h₉ => now_bind h₉.orderly ?_
  have houtput := (houtput.mono h₉.later).has
  have h₉ := (h₈.trans h₉.quiet).mono below_subset_under
  refine .pure ⟨⟨⟨houtput, h₉.orderly.admits⟩, ⟨houtput, h₉.orderly.admits⟩, fun x hx => ?_⟩, q, h₉⟩
  exact (le_allReady x hx).trans hle

/-! ### Rounds -/

/-- All bits are there by cycle `k`. -/
def ThereBy (k : ℕ) (bits : List HeapBit) : Prop := ∀ x ∈ bits, x.cycle ≤ k

/-- What a step leaves of some bits: bits of the same column and carries into the
next one. All are sound. The ones of the column are no earlier than what was
there before: a cycle by which they are there bounds the bits before them and
the uses of the step, which were over by `n` before and are over by `m` now. -/
structure Carried (t : Target) (n m : ℕ) (b : Builder) (bits stay carries : List HeapBit) :
    Prop where
  stay_sound : ∀ x ∈ stay, x.Sound t b
  carries_sound : ∀ x ∈ carries, x.Sound t b
  thereBy : ∀ k, ThereBy k stay → ThereBy k bits
  uses : ∀ k, n ≤ k → ThereBy k stay → m ≤ k

lemma Compressed.Sound.carried {c : Compressed} {inputs : List HeapBit}
    (h : c.Sound t b inputs) : Carried t n (max n c.sum.cycle) b inputs [c.sum] [c.carry] where
  stay_sound := List.forall_mem_singleton.mpr h.sum
  carries_sound := List.forall_mem_singleton.mpr h.carry
  thereBy _ hk x hx := (h.after x hx).trans (hk c.sum (List.mem_singleton_self _))
  uses _ hn hk := max_le hn (hk c.sum (List.mem_singleton_self _))

namespace Carried

variable {m l : ℕ} {bits bits' stay stay' carries carries' : List HeapBit}

lemma refl (h : ∀ x ∈ bits, x.Sound t b) : Carried t n n b bits bits [] :=
  ⟨h, by simp, fun _ hk => hk, fun _ hn _ => hn⟩

/-- One step, and then another one on other bits. -/
lemma append (h : Carried t n m b bits stay carries) (hle : b ≤ b')
    (h' : Carried t m l b' bits' stay' carries') :
    Carried t n l b' (bits ++ bits') (stay ++ stay') (carries ++ carries') where
  stay_sound := List.forall_mem_append.mpr
    ⟨fun x hx => (h.stay_sound x hx).mono hle, h'.stay_sound⟩
  carries_sound := List.forall_mem_append.mpr
    ⟨fun x hx => (h.carries_sound x hx).mono hle, h'.carries_sound⟩
  thereBy k hk := List.forall_mem_append.mpr
    ⟨h.thereBy k (List.forall_mem_append.mp hk).1, h'.thereBy k (List.forall_mem_append.mp hk).2⟩
  uses k hn hk := h'.uses k (h.uses k hn (List.forall_mem_append.mp hk).1)
    (List.forall_mem_append.mp hk).2

/-- One step, and then another one on some of the bits that it leaves. -/
lemma andThen (h : Carried t n m b bits (stay ++ bits') carries) (hle : b ≤ b')
    (h' : Carried t m l b' bits' stay' carries') :
    Carried t n l b' bits (stay ++ stay') (carries ++ carries') where
  stay_sound := List.forall_mem_append.mpr
    ⟨fun x hx => (h.stay_sound x (List.mem_append_left _ hx)).mono hle, h'.stay_sound⟩
  carries_sound := List.forall_mem_append.mpr
    ⟨fun x hx => (h.carries_sound x hx).mono hle, h'.carries_sound⟩
  thereBy k hk := h.thereBy k (List.forall_mem_append.mpr
    ⟨(List.forall_mem_append.mp hk).1, h'.thereBy k (List.forall_mem_append.mp hk).2⟩)
  uses k hn hk :=
    have hstay := List.forall_mem_append.mp hk
    h'.uses k (h.uses k hn (List.forall_mem_append.mpr ⟨hstay.1, h'.thereBy k hstay.2⟩)) hstay.2

/-- One step, and then another one on the bits that it leaves. -/
lemma trans (h : Carried t n m b bits stay []) (hle : b ≤ b')
    (h' : Carried t m l b' stay stay' []) : Carried t n l b' bits stay' [] :=
  show Carried t n l b' bits ([] ++ stay') ([] ++ []) from
    andThen (show Carried t n m b bits ([] ++ stay) [] from h) hle h'

/-- Other bits may stay, too. -/
lemma more {others : List HeapBit} (h : Carried t n m b bits stay carries)
    (hothers : ∀ x ∈ others, x.Sound t b) : Carried t n m b bits (others ++ stay) [] where
  stay_sound := List.forall_mem_append.mpr ⟨hothers, h.stay_sound⟩
  carries_sound := by simp
  thereBy k hk := h.thereBy k (List.forall_mem_append.mp hk).2
  uses k hn hk := h.uses k hn (List.forall_mem_append.mp hk).2

lemma of_subset (h : Carried t n m b bits stay carries) (hsub : bits' ⊆ bits) :
    Carried t n m b bits' stay carries :=
  { h with thereBy := fun k hk x hx => h.thereBy k hk x (hsub hx) }

end Carried

namespace Round

variable {r : Round} {w : ℕ}

/-- What the names of the compressors of a column begin with. -/
def columnPath (r : Round) (w : ℕ) : List (List Char) := path s!"{r.tag}_r{r.number}_w{w}"

/-- Full adders leave sums and what is too little for one more. -/
lemma fullAdders_comes {k : ℕ} {bits : List HeapBit} (hb : b.Orderly r.target n p)
    (hbits : ∀ x ∈ bits, x.Sound r.target b)
    (hfree : b.Free (Below (r.columnPath w) (Numbered ["fa"] (k ≤ ·)))) :
    Comes (BuildError.Due r.target excused)
      (fun c b' => ∃ m p',
        Carried r.target n m b' bits (c.1.map (·.sum) ++ c.2) (c.1.map (·.carry)) ∧
          b.Reaches r.target m p' (Below (r.columnPath w) (Numbered ["fa"] (k ≤ ·))) b')
      (r.fullAdders w k bits b) := by
  induction k, bits using fullAdders.induct generalizing b n p with
  | case1 k x y z rest ih =>
    have hlabel : Under (path s!"{r.tag}_r{r.number}_w{w}_fa{k}") ⊆
        Below (r.columnPath w) (Numbered ["fa"] (· = k)) := by
      have hpath : path s!"{r.tag}_r{r.number}_w{w}_fa{k}" =
          r.columnPath w ++ ["fa".toList ++ digits k] := by
        simp [columnPath, path, toString, cut]
      exact under_subset_below hpath (by simp [Numbered, Worded])
    have hthree : ∀ a ∈ [x, y, z], a.Sound r.target b := fun a ha =>
      hbits a (List.mem_append_left rest ha)
    have hrest : ∀ a ∈ rest, a.Sound r.target b := fun a ha =>
      hbits a (List.mem_append_right [x, y, z] ha)
    refine (compressor_comes hb hthree (hfree.first.mono hlabel)).bind ?_
    rintro node b₁ ⟨hnode, p₁, h₁⟩
    have h₁ := h₁.mono hlabel
    refine (ih h₁.orderly (fun a ha => (hrest a ha).mono h₁.later) (h₁.free_rest hfree)).bind ?_
    rintro ⟨nodes, left⟩ b₂ ⟨m, p₂, hcarried, h₂⟩
    exact .pure ⟨m, p₂, hnode.carried.append h₂.later hcarried, h₁.cons_numbered h₂⟩
  | case2 k left hshort =>
    rw [fullAdders]
    · exact .pure ⟨n, p, .refl hbits, .refl hb⟩
    · exact hshort

/-- A column is left with its sums and what no compressor takes. -/
lemma reduceColumn_comes {carries column : List HeapBit} (hb : b.Orderly r.target n p)
    (hcolumn : ∀ x ∈ column, x.Sound r.target b) (hfree : b.Free (Under (r.columnPath w))) :
    Comes (BuildError.Due r.target excused)
      (fun c b' => ∃ m p',
        Carried r.target n m b' column (c.1.map (·.sum) ++ c.2) (c.1.map (·.carry)) ∧
          b.Reaches r.target m p' (Under (r.columnPath w)) b')
      (r.reduceColumn w carries column b) := by
  have hsorted : ∀ x ∈ HeapBit.sorted column, x.Sound r.target b := fun x hx =>
    hcolumn x (List.mem_mergeSort.mp hx)
  refine (fullAdders_comes hb hsorted (hfree.mono below_subset_under)).bind ?_
  rintro ⟨nodes, left⟩ b₁ ⟨m, p₁, hcarried, h₁⟩
  have hcarried := hcarried.of_subset fun x hx => List.mem_mergeSort.mpr hx
  dsimp only at hcarried ⊢
  split
  case isFalse => exact .pure ⟨m, p₁, hcarried, h₁.mono below_subset_under⟩
  case isTrue =>
    have hlabel : Under (path s!"{r.tag}_r{r.number}_w{w}_ha") ⊆
        Below (r.columnPath w) (Worded ["ha"]) := by
      have hpath : path s!"{r.tag}_r{r.number}_w{w}_ha" = r.columnPath w ++ ["ha".toList] := by
        simp [columnPath, path, toString, cut]
      exact under_subset_below hpath (by simp [Worded])
    have hleft : ∀ x ∈ left, x.Sound r.target b₁ := fun x hx =>
      hcarried.stay_sound x (List.mem_append_right _ hx)
    have hfree₁ : b₁.Free (Below (r.columnPath w) (Worded ["ha"])) :=
      (h₁.mono numbered_subset_worded).free (hfree.mono below_subset_under)
        (worded_disjoint (by decide))
    refine (compressor_comes h₁.orderly hleft (hfree₁.mono hlabel)).bind ?_
    rintro node b₂ ⟨hnode, p₂, h₂⟩
    refine .pure ?_
    have hboth := (h₁.mono below_subset_under).trans
      ((h₂.mono hlabel).mono below_subset_under)
    have hcarried := hcarried.andThen h₂.later hnode.carried
    exact ⟨_, p₂, by simpa using hcarried, hboth⟩

/-- What the names of a round begin with. -/
def roundPath (r : Round) : List (List Char) := path s!"{r.tag}_r{r.number}"

/-- A round leaves bits that are sound and no earlier. -/
lemma reduceColumns_comes {carries : List HeapBit} {columns : List (List HeapBit)}
    (hb : b.Orderly r.target n p) (hcarries : ∀ x ∈ carries, x.Sound r.target b)
    (hcolumns : ∀ x ∈ columns.flatten, x.Sound r.target b)
    (hfree : b.Free (Below r.roundPath (Numbered ["w"] (w ≤ ·)))) :
    Comes (BuildError.Due r.target excused)
      (fun c b' => ∃ m p', Carried r.target n m b' columns.flatten c.2.flatten [] ∧
        b.Reaches r.target m p' (Below r.roundPath (Numbered ["w"] (w ≤ ·))) b')
      (r.reduceColumns w carries columns b) := by
  induction columns generalizing b n p w carries with
  | nil => exact .pure ⟨n, p, .refl hcolumns, .refl hb⟩
  | cons column columns ih =>
    rw [List.flatten_cons, List.forall_mem_append] at hcolumns
    have hcolumnPath : Under (r.columnPath w) ⊆ Below r.roundPath (Numbered ["w"] (· = w)) := by
      have hpath : r.columnPath w = r.roundPath ++ ["w".toList ++ digits w] := by
        simp [columnPath, roundPath, path, toString, cut]
      exact under_subset_below hpath (by simp [Numbered, Worded])
    refine (reduceColumn_comes hb hcolumns.1 (hfree.first.mono hcolumnPath)).bind ?_
    rintro ⟨nodes, left⟩ b₁ ⟨m₁, p₁, hcarried₁, h₁⟩
    have h₁ := h₁.mono hcolumnPath
    refine (ih h₁.orderly hcarried₁.carries_sound (fun x hx => (hcolumns.2 x hx).mono h₁.later)
      (h₁.free_rest hfree)).bind ?_
    rintro ⟨others, rest⟩ b₂ ⟨m₂, p₂, hcarried₂, h₂⟩
    refine .pure ⟨m₂, p₂, ?_, h₁.cons_numbered h₂⟩
    have hcarried := (hcarried₁.append h₂.later hcarried₂).more fun x hx =>
      (hcarries x hx).mono (h₁.later.trans h₂.later)
    simpa using hcarried

end Round

/-- Rounds leave bits that are sound and no earlier. -/
lemma reduceAll_comes {fuel done : ℕ} {columns : List (List HeapBit)} (hb : b.Orderly t n p)
    (hcolumns : ∀ x ∈ columns.flatten, x.Sound t b)
    (hfree : b.Free (Below (path tag) (Numbered ["r"] (done + 1 ≤ ·)))) :
    Comes (BuildError.Due t excused)
      (fun r b' => ∃ m p', Carried t n m b' columns.flatten r.columns.flatten [] ∧
        b.Reaches t m p' (Below (path tag) (Numbered ["r"] (done + 1 ≤ ·))) b')
      (reduceAll t tag fuel done columns b) := by
  induction fuel generalizing b n p done columns with
  | zero => exact .pure ⟨n, p, .refl hcolumns, .refl hb⟩
  | succ fuel ih =>
    rw [reduceAll]
    split
    case isFalse => exact .pure ⟨n, p, .refl hcolumns, .refl hb⟩
    case isTrue =>
      have hround : Below (Round.roundPath ⟨t, tag, done + 1⟩) (Numbered ["w"] (0 ≤ ·)) ⊆
          Below (path tag) (Numbered ["r"] (· = done + 1)) := by
        have hpath : Round.roundPath ⟨t, tag, done + 1⟩ =
            path tag ++ ["r".toList ++ digits (done + 1)] := by
          simp [Round.roundPath, path, toString, cut]
        exact below_subset_under.trans (under_subset_below hpath (by simp [Numbered, Worded]))
      refine (Round.reduceColumns_comes (r := ⟨t, tag, done + 1⟩) hb (by simp) hcolumns
        (hfree.first.mono hround)).bind ?_
      rintro ⟨nodes, columns₁⟩ b₁ ⟨m₁, p₁, hcarried₁, h₁⟩
      have h₁ := h₁.mono hround
      refine (ih h₁.orderly hcarried₁.stay_sound (h₁.free_rest hfree)).bind ?_
      rintro r b₂ ⟨m₂, p₂, hcarried₂, h₂⟩
      exact .pure ⟨m₂, p₂, hcarried₁.trans h₂.later hcarried₂, h₁.cons_numbered h₂⟩

/-! ### Rows -/

lemma HeapBit.cycle_le_of_upTo {x y : HeapBit} (h : upTo x y = true) : x.cycle ≤ y.cycle := by
  by_contra hlt
  have hcompare : compare x.cycle y.cycle = .gt := Nat.compare_eq_gt.mpr (Nat.not_le.mp hlt)
  rw [upTo, availability, hcompare] at h
  cases h

lemma HeapBit.cycle_le_of_not_upTo {x y : HeapBit} (h : ¬ upTo x y = true) : y.cycle ≤ x.cycle := by
  by_contra hlt
  have hcompare : compare x.cycle y.cycle = .lt := Nat.compare_eq_lt.mpr (Nat.not_le.mp hlt)
  rw [upTo, availability, hcompare] at h
  exact h rfl

/-- The latest one of some bits is one of them, and all are there by its cycle. -/
lemma HeapBit.latest_spec {x : HeapBit} {bits : List HeapBit} {last : HeapBit}
    (h : latest (x :: bits) = some last) : last ∈ x :: bits ∧ ThereBy last.cycle (x :: bits) := by
  cases h
  induction bits generalizing x with
  | nil => exact ⟨List.mem_cons_self, by simp [ThereBy]⟩
  | cons y bits ih =>
    rw [List.foldl_cons]
    by_cases hupTo : upTo x y = true
    · rw [if_pos hupTo]
      obtain ⟨hmem, hby⟩ := @ih y
      have hx := (cycle_le_of_upTo hupTo).trans (hby y List.mem_cons_self)
      exact ⟨List.mem_cons_of_mem x hmem, List.forall_mem_cons.mpr ⟨hx, hby⟩⟩
    · rw [if_neg hupTo]
      obtain ⟨hmem, hby⟩ := @ih x
      obtain ⟨hx, hbits⟩ := List.forall_mem_cons.mp hby
      have hy := (cycle_le_of_not_upTo hupTo).trans hx
      refine ⟨?_, List.forall_mem_cons.mpr ⟨hx, List.forall_mem_cons.mpr ⟨hy, hbits⟩⟩⟩
      rcases List.mem_cons.mp hmem with hmem | hmem
      · exact List.mem_cons.mpr (.inl hmem)
      · exact List.mem_cons_of_mem x (List.mem_cons_of_mem y hmem)

/-- As many rows are declared as there should be, and they are there now. -/
lemma declareRows_comes {width r count : ℕ} {columns : List (List HeapBit)}
    (hb : b.Orderly t n p) (hfree : b.Free (Below (path tag) (Numbered ["row"] (r ≤ ·)))) :
    Comes (BuildError.Due t excused)
      (fun rows b' => rows.length = count ∧ (∀ row ∈ rows, b'.Has row.signal p.cycle) ∧
        b.Reaches t n p (Below (path tag) (Numbered ["row"] (r ≤ ·))) b')
      (declareRows tag width r columns count b) := by
  induction count generalizing b r with
  | zero => exact .pure ⟨rfl, by simp, .refl hb⟩
  | succ count ih =>
    refine (declare_comes (N := Below (path tag) (Numbered ["row"] (· = r))) hb
      ⟨"row".toList ++ digits r, by simp [Numbered, Worded], by simp [Under, path, toString, cut]⟩
      hfree.first).bind ?_
    rintro signal b₁ ⟨hsignal, -, h₁⟩
    refine (ih h₁.orderly (h₁.free_rest hfree)).bind ?_
    rintro rows b₂ ⟨hlength, hrows, h₂⟩
    exact .pure ⟨congrArg (· + 1) hlength,
      List.forall_mem_cons.mpr ⟨(hsignal.mono h₂.later).has, hrows⟩, h₁.cons_numbered h₂⟩

/-- The rows are there as soon as all bits are, and so all uses are over. -/
lemma layRows_comes {width : ℕ} {columns : List (List HeapBit)} (hb : b.Orderly t n p)
    (hcolumns : ∀ x ∈ columns.flatten, x.Sound t b)
    (hn : ∀ k, ThereBy k columns.flatten → n ≤ k)
    (hfree : b.Free (Below (path tag) (Numbered ["row"] (0 ≤ ·)))) :
    Comes (BuildError.Due t excused)
      (fun rows b' => rows ≠ [] ∧ ∃ p', (∀ row ∈ rows, b'.Has row.signal p'.cycle) ∧
        b.Reaches t p'.cycle p' (Below (path tag) (Numbered ["row"] (0 ≤ ·))) b')
      (layRows tag width columns b) := by
  have hrest : ∀ b' p', b.Reaches t n p' ∅ b' → ThereBy p'.cycle columns.flatten →
      Comes (BuildError.Due t excused)
        (fun rows b' => rows ≠ [] ∧ ∃ p', (∀ row ∈ rows, b'.Has row.signal p'.cycle) ∧
          b.Reaches t p'.cycle p' (Below (path tag) (Numbered ["row"] (0 ≤ ·))) b')
        ((do
          readSources (columns.flatten.map (·.source))
          declareRows tag width 0 columns (tallest columns 1) : Build (List HeapRow)) b') := by
    intro b' p' h' hby
    have h' := h'.of_le (hn _ hby)
    have hsources : ∀ s ∈ columns.flatten.map (·.source), s.On (b'.Has · p'.cycle) := by
      intro s hs
      obtain ⟨x, hx, rfl⟩ := List.mem_map.mp hs
      exact (hcolumns x hx).there.mono fun _ hid => (hid.mono h'.later).of_le (hby x hx)
    refine (readSources_comes h'.orderly le_rfl hsources).bind fun _ b₁ h₁ => ?_
    have h₁ := h'.trans h₁
    refine (declareRows_comes h₁.orderly (h₁.free hfree (Set.disjoint_empty _))).imp ?_
    rintro rows b₂ _ ⟨hlength, hrows, h₂⟩
    have hpos : 0 < rows.length := by
      rw [hlength]
      exact (tallest_bounds columns 1).1
    exact ⟨List.ne_nil_of_length_pos hpos, p', hrows, h₁.quiet.trans h₂⟩
  rw [layRows]
  generalize hbits : columns.flatten = bits at *
  cases bits with
  | nil => exact hrest b p (.refl hb) (by simp [ThereBy])
  | cons x bits =>
    obtain ⟨last, hlast⟩ : ∃ last, HeapBit.latest (x :: bits) = some last := ⟨_, rfl⟩
    obtain ⟨hmem, hby⟩ := HeapBit.latest_spec hlast
    have hadmits : t.Admits last.ready := (hcolumns last hmem).admits
    rw [hlast]
    exact (moveTo_comes hb hadmits).bind fun _ b₁ h₁ => hrest b₁ last.ready h₁ hby

/-- The last row is the sum, or the last two are added. -/
lemma sumRows_comes {width : ℕ} {rows : List HeapRow} (hb : b.Orderly t p.cycle p)
    (hne : rows ≠ []) (hrows : ∀ row ∈ rows, b.Has row.signal p.cycle)
    (hwide : ExcusesWide excused width) (hfree : b.Free (Below [] (Worded ["csa"]))) :
    Comes (BuildError.Due t excused)
      (fun r b' => b.Concludes t (Below [] (Worded ["csa"])) r.1 b') (sumRows t width rows b) := by
  have hone (row : HeapRow) (h : row ∈ rows) :
      b.Concludes t (Below [] (Worded ["csa"])) row.signal b := ⟨p, hrows row h, .refl hb⟩
  rcases rows with _ | ⟨x, _ | ⟨y, _ | ⟨z, rest⟩⟩⟩
  · exact absurd rfl hne
  · exact .pure (hone x List.mem_cons_self)
  · have hx := hrows x List.mem_cons_self
    have hy := hrows y (List.mem_cons_of_mem x List.mem_cons_self)
    exact (carrySelect_comes hb le_rfl hx hy (by simp) hwide hfree).bind fun sum b₁ h₁ => .pure h₁
  · exact .pure (hone x List.mem_cons_self)

/-! ### Compressions -/

/-- The bits of a heap are sound, and uses are over once all of them are there. -/
structure BitHeap.Sound (t : Target) (n : ℕ) (b : Builder) (h : BitHeap) : Prop where
  bits : ∀ w, ∀ x ∈ h.column w, x.Sound t b
  uses : ∀ k, (∀ w, ∀ x ∈ h.column w, x.cycle ≤ k) → n ≤ k

/-- Settled columns hold the bits of the columns and constants. -/
lemma mem_settleOnes {w carry : ℕ} {columns : List (List HeapBit × ℕ)} {x : HeapBit} :
    ((∃ column ∈ columns, x ∈ column.1) → x ∈ (settleOnes w carry columns).flatten) ∧
      (x ∈ (settleOnes w carry columns).flatten →
        (∃ column ∈ columns, x ∈ column.1) ∨ ∃ k, x = .constantOne k) := by
  induction columns generalizing w carry with
  | nil => simp [settleOnes]
  | cons column columns ih =>
    obtain ⟨hkeep, hfrom⟩ := @ih (w + 1) ((column.2 + carry) / 2)
    rw [settleOnes, List.flatten_cons, List.mem_append, List.exists_mem_cons_iff]
    constructor
    · refine Or.imp (fun hx => ?_) hkeep
      split_ifs
      · exact List.mem_append_left _ hx
      · exact hx
    · rintro (hx | hx)
      · split_ifs at hx
        · rcases List.mem_append.mp hx with hx | hx
          · exact .inl (.inl hx)
          · exact .inr ⟨w, List.mem_singleton.mp hx⟩
        · exact .inl (.inl hx)
      · exact (hfrom hx).imp_left .inr

/-- A compression makes its sum behind all its uses. -/
lemma BitHeap.compress_comes {h : BitHeap} (hb : b.Orderly t n p) (hh : h.Sound t n b)
    (hwide : ExcusesWide excused h.width) (hfree : b.Free (Below [] (Worded ["bh", "csa"]))) :
    Comes (BuildError.Due t excused)
      (fun r b' => b.Concludes t (Below [] (Worded ["bh", "csa"])) r.result b')
      (h.compress t b) := by
  have hbits : ∀ x ∈ h.settled.flatten, x.Sound t b := by
    intro x hx
    obtain ⟨column, hcolumn, hmem⟩ | ⟨k, rfl⟩ := mem_settleOnes.2 hx
    · obtain ⟨w, -, rfl⟩ := List.mem_map.mp hcolumn
      exact hh.bits w x (Array.mem_toList_iff.mp hmem)
    · exact HeapBit.sound_constantOne k
  have huses : ∀ k, ThereBy k h.settled.flatten → n ≤ k := by
    refine fun k hk => hh.uses k fun w x hx => hk x (mem_settleOnes.1 ?_)
    have hw : w < h.width := by
      by_contra hout
      have hempty : h.column w = #[] := by simp [column, h.columns_size, hout]
      rw [hempty] at hx
      exact Array.not_mem_empty x hx
    exact ⟨_, List.mem_map.mpr ⟨w, List.mem_range.mpr hw, rfl⟩, Array.mem_toList_iff.mpr hx⟩
  refine (uniqueId_comes hb).bind ?_
  rintro k b₁ ⟨-, -, h₁⟩
  have hunder : Under (path s!"bh{k}") ⊆ Below [] (Worded ["bh"]) := by
    have hpath : path s!"bh{k}" = [] ++ ["bh".toList ++ digits k] := by simp [path, toString, cut]
    exact under_subset_below hpath (by simp [Worded])
  have hfree₁ : b₁.Free (Under (path s!"bh{k}")) :=
    h₁.free (hfree.mono (hunder.trans (worded_subset (by decide)))) (Set.disjoint_empty _)
  refine (reduceAll_comes h₁.orderly (fun x hx => (hbits x hx).mono h₁.later)
    (hfree₁.mono below_subset_under)).bind ?_
  rintro done b₂ ⟨m, p₂, hcarried, h₂⟩
  have hdone : ∀ k, ThereBy k done.columns.flatten → m ≤ k := fun k hk =>
    hcarried.uses k (huses k (hcarried.thereBy k hk)) hk
  have hfree₂ : b₂.Free (Below (path s!"bh{k}") (Numbered ["row"] (0 ≤ ·))) :=
    h₂.free (hfree₁.mono below_subset_under)
      ((worded_disjoint (by decide)).mono numbered_subset_worded numbered_subset_worded)
  refine (layRows_comes h₂.orderly hcarried.stay_sound hdone hfree₂).bind ?_
  rintro rows b₃ ⟨hne, p₃, hrows, h₃⟩
  have h₃ : b.Reaches t p₃.cycle p₃ (Below [] (Worded ["bh"])) b₃ :=
    (h₁.quiet.trans (h₂.mono (below_subset_under.trans hunder))).trans
      (h₃.mono (below_subset_under.trans hunder))
  have hfree₃ : b₃.Free (Below [] (Worded ["csa"])) :=
    h₃.free_words hfree (by decide) (by decide)
  refine (sumRows_comes h₃.orderly hne hrows hwide hfree₃).bind fun r b₄ hr => .pure ?_
  exact (h₃.mono (worded_subset (by decide))).concludes (hr.mono (worded_subset (by decide)))

end Datapath
