/-
Tilings fill a heap in order.

* `MultiplierOptions.Excused`: the faults of a search that are excused.
  `Site.due_of_findTiling`: where no tiling is found, parameters are to blame, or
  the fault is one of these.
* `Site.addUp_comes`: every adder of a cascade waits for the one before it, so
  the last sum is made behind all uses.
* `Site.addCascade_comes`: the heap holds the top bit of this sum, so the uses
  in a cascade are over once all bits of the heap are there.
* `Site.addTiling_comes`, `Site.addProduct_comes`: a product fills the heap,
  whatever the way to compute it is.
-/
import Datapath.Multiplier.Basic
import Datapath.Proofs.Product.Filling
import Datapath.Proofs.Product.Tiled

namespace Datapath

variable {t : Target} {n m : ℕ} {p : Instant} {excused : ConsistencyFault → Prop} {N : Set String}
  {c c' : Contribution}

/-! ### The tiling -/

/-- Only the shares of an exhaustive search can outlast the clock. -/
lemma Tiling.exhaustive_of_overrun [Surroundings] {problem : Problem} {b : Budget} {clock : Clock}
    {strategy : Strategy}
    (h : ((Search.start problem b clock).run strategy).overrun = true) :
    strategy = .exhaustive ∧ clockSpan ≤ b.time := by
  cases strategy with
  | exhaustive =>
    refine ⟨rfl, Nat.le_of_not_lt fun htime => ?_⟩
    obtain ⟨-, htimely⟩ := Search.run_best (p := problem) (Q := fun _ => True)
      (fun _ _ => trivial) b clock .exhaustive
    rw [htimely htime] at h
    cases h
  | annealing seed =>
    have hwalk : ((Search.start problem b clock).run (.annealing seed)).overrun = false :=
      (Search.overrun_outcome _).trans (overrun_anneal _ _ _)
    rw [hwalk] at h
    cases h

/-- A tiling that does not pass its check is a fault of its own. -/
lemma Tiling.Configuration.fault_of_checkRects {grid : Grid} {rects : List Rect} {e : BuildError}
    (h : checkRects grid rects = .error e) : ∃ fault, e = .invariant fault := by
  induction rects with
  | nil => cases h
  | cons r rects ih =>
    rw [checkRects] at h
    split_ifs at h
    · cases h
      exact ⟨_, rfl⟩
    · split at h
      case h_1 =>
        cases h
        exact ⟨_, rfl⟩
      case h_2 => exact ih h

lemma Tiling.Configuration.fault_of_validate {config : Configuration} {e : BuildError}
    (h : config.validate = .error e) : ∃ fault, e = .invariant fault := by
  obtain h | ⟨_, -, h⟩ := except_bind_eq_error.mp h
  · exact fault_of_checkRects h
  · dsimp only at h
    split_ifs at h
    cases h
    exact ⟨_, rfl⟩

/-- The block that an unsigned product is tiled with. -/
def Target.tile (t : Target) : Tiling.BlockShape :=
  ⟨(t.blockWidths false).1, (t.blockWidths false).2⟩

/-- A search for a tiling is excused if a share of its time outlasts the clock, and
if the far corners of the blocks cannot be counted. -/
structure MultiplierOptions.Excused (options : MultiplierOptions) (t : Target)
    (grid : Tiling.Grid) (excused : ConsistencyFault → Prop) : Prop where
  late : options.strategy = .exhaustive → Tiling.clockSpan ≤ options.budget.time →
    excused .clockOverrun
  far : ¬ grid.Counts t.tile → ∀ fault, excused fault

namespace Site

open Contributing (build_bind)

variable {s : Site} {label : String} {options : MultiplierOptions}

/-- There is a tiling, unless there is no such problem or the search is excused. -/
lemma due_of_findTiling [Tiling.Surroundings] {e : BuildError} (h : s.findTiling options = .error e)
    (hexcused : options.Excused s.target ⟨s.wx, s.wy⟩ excused) : e.Due t excused := by
  obtain hmake | ⟨problem, hmake, hrest⟩ := except_bind_eq_error.mp h
  · rw [Tiling.Problem.make] at hmake
    split_ifs at hmake
    cases hmake
    trivial
  dsimp only at hrest
  split_ifs at hrest with hspan
  · cases hrest
    obtain ⟨hstrategy, htime⟩ := Tiling.exhaustive_of_overrun hspan
    exact .inl (hexcused.late hstrategy htime)
  · by_cases hcounts : (Tiling.Grid.mk s.wx s.wy).Counts s.target.tile
    · obtain ⟨htiles, -⟩ := Tiling.Search.run_best (p := problem)
        (Q := (·.Tiles ⟨s.wx, s.wy⟩ s.target.tile))
        (fun _ hapart => Tiling.tiles_of_apart hmake hcounts hapart)
        options.budget Tiling.Surroundings.clock options.strategy
      rw [htiles.valid] at hrest
      cases hrest
    · obtain hvalidate | ⟨_, _, hpure⟩ := except_bind_eq_error.mp hrest
      · obtain ⟨fault, rfl⟩ := Tiling.Configuration.fault_of_validate hvalidate
        exact .inl (hexcused.far hcounts fault)
      · cases hpure

/-- Every block of the tiling that is found has its lowest bit in the product. -/
lemma corner_lt_of_findTiling [Tiling.Surroundings] {o : Tiling.Outcome}
    (h : s.findTiling options = .ok o) :
    ∀ r ∈ o.best.placements.toList.map (·.rect), r.x + r.y < s.wx + s.wy := by
  obtain ⟨chosen, cost, table, hbest, -, hblocks⟩ := blocks_of_findTiling h
  intro r hr
  obtain ⟨block, hblock, rfl⟩ := List.mem_map.mp hr
  rw [hbest] at hblock
  obtain ⟨c, hc, rfl⟩ := List.mem_map.mp (List.mem_toArray.mp (Array.mem_toList_iff.mp hblock))
  obtain ⟨⟨hx, hy⟩, -⟩ := hblocks c hc
  exact Nat.add_lt_add hx hy

/-! ### Cascades -/

lemma placeFields_comes {x y : OperandField} (hb : c.builder.Orderly s.target n p)
    (hs : s.Ready n c.builder)
    (hfree : c.builder.Free (Below (path label) (Worded ["X", "Y", "R"]))) :
    Comes (BuildError.Due s.target excused)
      (fun product c' => ∃ p', c'.builder.Has product p'.cycle ∧
        c.Reaches s.target n n p' (Below (path label) (Worded ["X", "Y", "R"])) c')
      (s.placeFields label x y c) := by
  have hplace : Comes (BuildError.Due s.target excused)
      (fun product b' => ∃ p', b'.Has product p'.cycle ∧
        c.builder.Reaches s.target n p' (Below (path label) (Worded ["X", "Y", "R"])) b')
      ((do
        s.readOperands
        let xs ← Build.declare s!"{label}_X" x.width
        let ys ← Build.declare s!"{label}_Y" y.width
        placeBlock s.target xs ys label : Build SignalId) c.builder) := by
    refine (readOperands_comes hb hs).bind fun _ b₁ h₁ => ?_
    have h₁ : c.builder.Reaches s.target n s.start (Below (path label) (Worded [])) b₁ := h₁.quiet
    refine (Build.declare_comes (N := Below (path label) (Worded ["X"])) h₁.orderly
      (mem_worded (by decide))
      (h₁.free_words hfree (by decide) (by decide))).bind ?_
    rintro xs b₂ ⟨hxs, hwx, h₂⟩
    have h₂ := h₁.append h₂
    refine (Build.declare_comes (N := Below (path label) (Worded ["Y"])) h₂.orderly
      (mem_worded (by decide))
      (h₂.free_words hfree (by decide) (by decide))).bind ?_
    rintro ys b₃ ⟨hys, hwy, h₃⟩
    have hxs := hxs.mono h₃.later
    have hwx := hwx.mono h₃.later
    have h₃ := h₂.append h₃
    refine (placeBlock_comes h₃.orderly hs.started hxs.has hys.has hwx hwy
      (h₃.free_words hfree (by decide) (by decide))).imp ?_
    rintro product b₄ _ ⟨p', -, -, hproduct, -, h₄⟩
    exact ⟨p', hproduct.has, h₃.append h₄⟩
  refine build_bind hplace ?_
  rintro product b₁ ⟨p', hproduct, h₁⟩
  exact ⟨p', hproduct, (Contribution.Reaches.of_builder h₁).record⟩

/-- The products of a cascade are there by the point in time that comes with
them. -/
lemma placeStages_comes {lowest k : ℕ} {ready : Instant} {blocks : List Tiling.Placement}
    (hb : c.builder.Orderly s.target n p) (hs : s.Ready n c.builder)
    (hready : s.target.Admits ready)
    (hfree : c.builder.Free (Below (path label) (Numbered ["dsp"] (k ≤ ·)))) :
    Comes (BuildError.Due s.target excused)
      (fun r c' => ready.cycle ≤ r.2.cycle ∧ s.target.Admits r.2 ∧
        (∀ stage ∈ r.1, c'.builder.Has stage.product r.2.cycle) ∧
        ∃ p', c.Reaches s.target n n p' (Below (path label) (Numbered ["dsp"] (k ≤ ·))) c')
      (s.placeStages label lowest k ready blocks c) := by
  induction blocks generalizing c k ready p with
  | nil => exact .pure ⟨le_rfl, hready, by simp, p, .refl hb⟩
  | cons q blocks ih =>
    have hunder : Below (path s!"{label}_dsp{k}") (Worded ["X", "Y", "R"]) ⊆
        Below (path label) (Numbered ["dsp"] (· = k)) := by
      have hpath : path s!"{label}_dsp{k}" = path label ++ ["dsp".toList ++ digits k] := by
        simp [path, toString, Datapath.cut]
      exact below_subset_under.trans (under_subset_below hpath (by simp [Numbered, Worded]))
    refine (placeFields_comes hb hs (hfree.first.mono hunder)).bind ?_
    rintro product c₁ ⟨p₁, hproduct, h₁⟩
    have h₁ := h₁.mono hunder
    refine build_bind (Q := fun now b' => p₁ = now ∧ c₁.builder = b')
      ⟨h₁.builder.orderly.now.symm, rfl⟩ ?_
    rintro _ _ ⟨rfl, rfl⟩
    have hlatest := Target.admits_later hready h₁.builder.orderly.admits
    refine (ih h₁.builder.orderly (hs.mono h₁.builder.later) hlatest
      (h₁.builder.free_rest hfree)).bind ?_
    rintro r c₂ ⟨hle, hlast, hstages, p₂, h₂⟩
    refine .pure ?_
    have hfirst : c₂.builder.Has product r.2.cycle :=
      (hproduct.mono h₂.builder.later).of_le ((ready.le_later_right p₁).trans hle)
    exact ⟨(ready.le_later_left p₁).trans hle, hlast, List.forall_mem_cons.mpr ⟨hfirst, hstages⟩,
      p₂, (h₁.mono (numbered_subset (List.Subset.refl _) fun _ hk => hk.ge)).trans
        (h₂.mono (numbered_subset (List.Subset.refl _) fun _ hk => (Nat.le_succ k).trans hk))⟩

/-- The adder of a cascade is defined where its blocks are ready. -/
lemma defineAdder_comes (width : ℕ) {ready : Instant} {b : Builder} (hb : b.Orderly t n p)
    (hready : t.Admits ready) :
    Comes (BuildError.Due t excused)
      (fun _ b' => b'.Defines (postAdderName width) ∧ b.Reaches t n ready ∅ b')
      ((do
        Build.addSubcomponent (postAdderComponent width)
        Build.moveTo ready : Build Unit) b) := by
  refine (Build.addSubcomponent_comes hb (postAdderComponent_isElement _)).bind ?_
  rintro _ b₁ ⟨hdefines, h₁⟩
  refine (Build.moveTo_comes h₁.orderly hready).imp fun _ b₂ _ h₂ => ?_
  exact ⟨h₂.defines _ hdefines, h₁.trans h₂⟩

/-- The adder of a block waits for both of its inputs. -/
lemma adder_comes {width k : ℕ} {sum product : SignalId} {b : Builder}
    (hb : b.Orderly t (max n p.cycle) p) (hsum : b.Has sum p.cycle)
    (hproduct : b.Has product p.cycle) (hdefines : b.Defines (postAdderName width))
    (hfree : b.Free (Below (path label) (Numbered ["sum"] (· = k)))) :
    Comes (BuildError.Due t excused)
      (fun next b' => ∃ p', p.cycle ≤ p'.cycle ∧ b'.MadeIn next p'.cycle ∧ b'.HasWidth next width ∧
        b.Reaches t (max n p'.cycle) p' (Below (path label) (Numbered ["sum"] (· = k))) b')
      (placePostAdder t sum product width s!"{label}_sum{k}" b) := by
  refine (placePostAdder_comes (N := Below (path label) (Numbered ["sum"] (· = k))) hb
    (le_max_right _ _) hsum hproduct hdefines ⟨"sum".toList ++ digits k,
      by simp [Numbered, Worded], by simp [Under, path, toString, Datapath.cut]⟩ hfree).imp ?_
  rintro next b₁ _ ⟨p₁, hle, -, hmade, hwidth, h₁⟩
  exact ⟨p₁, hle, hmade, hwidth, h₁.of_le (max_le_max_left n hle)⟩

/-- Every adder waits for the sum before it, and the last sum is made where all
uses are over. -/
lemma addUp_comes {width k : ℕ} {terms : List CascadeTerm} {sum : SignalId} {stage : Stage}
    {stages : List Stage} (hb : c.builder.Orderly s.target (max n p.cycle) p)
    (hsum : c.builder.Has sum p.cycle)
    (hproducts : ∀ other ∈ stage :: stages, c.builder.Has other.product p.cycle)
    (hdefines : c.builder.Defines (postAdderName width))
    (hfree : c.builder.Free (Below (path label) (Numbered ["sum"] (k ≤ ·)))) :
    Comes (BuildError.Due s.target excused)
      (fun out c' => ∃ p', c'.heap = c.heap ∧ c'.builder.MadeIn out p'.cycle ∧
        c'.builder.HasWidth out width ∧
        c.builder.Reaches s.target (max n p'.cycle) p'
          (Below (path label) (Numbered ["sum"] (k ≤ ·))) c'.builder)
      (s.addUp label width k terms sum (stage :: stages) c) := by
  induction stages generalizing c k terms sum stage p with
  | nil =>
    refine build_bind (adder_comes hb hsum (hproducts _ List.mem_cons_self) hdefines hfree.first) ?_
    rintro next b₁ ⟨p₁, -, hmade, hwidth, h₁⟩
    exact ⟨p₁, rfl, hmade, hwidth, h₁.mono (numbered_subset (List.Subset.refl _) fun _ hi => hi.ge)⟩
  | cons second stages ih =>
    refine build_bind (adder_comes hb hsum (hproducts _ List.mem_cons_self) hdefines hfree.first) ?_
    rintro next b₁ ⟨p₁, hle, hmade, hwidth, h₁⟩
    let c₁ : Contribution := ⟨b₁, c.heap, c.parts.insert next (.cascade (terms ++ [stage.term]))⟩
    have hrest : ∀ stage ∈ second :: stages, c₁.builder.Has stage.product p₁.cycle :=
      fun stage hstage =>
        ((hproducts stage (List.mem_cons_of_mem _ hstage)).mono h₁.later).of_le hle
    refine (ih (c := c₁) h₁.orderly hmade.has hrest (h₁.defines _ hdefines)
      (h₁.free_rest hfree)).imp ?_
    rintro out c₂ _ ⟨p₂, hheap, hmade, hwidth, h₂⟩
    exact ⟨p₂, hheap, hmade, hwidth, h₁.cons_numbered h₂⟩

/-- The sum of the blocks is at the top of the product, so its top bit is in the
heap. -/
lemma addCascade_comes {i : ℕ} {blocks : List Tiling.Placement}
    (hb : c.builder.Orderly s.target n p) (hs : s.Ready n c.builder)
    (htop : c.heap.Takes (s.base + (s.wx + s.wy - 1 : ℕ)))
    (hblocks : ∀ q ∈ blocks, q.weight < s.wx + s.wy)
    (hfree : c.builder.Free (Below (path s.tag) (Numbered ["c"] (· = i)))) :
    Comes (BuildError.Due s.target excused)
      (fun _ c' => ∃ m p', n ≤ m ∧
        c.Reaches s.target n m p' (Below (path s.tag) (Numbered ["c"] (· = i))) c')
      (s.addCascade i blocks c) := by
  cases blocks with
  | nil => exact .pure ⟨n, p, le_rfl, .refl hb⟩
  | cons q blocks =>
    have hcorner := hblocks q List.mem_cons_self
    have hunder : Under (path s!"{s.tag}_c{i}") ⊆ Below (path s.tag) (Numbered ["c"] (· = i)) := by
      have hpath : path s!"{s.tag}_c{i}" = path s.tag ++ ["c".toList ++ digits i] := by
        simp [path, toString, Datapath.cut]
      exact under_subset_below hpath (by simp [Numbered, Worded])
    have hstages : Below (path s!"{s.tag}_c{i}") (Numbered ["dsp"] (0 ≤ ·)) ⊆
      Below (path s!"{s.tag}_c{i}") (Worded ["dsp"]) := numbered_subset_worded
    have hsums : Below (path s!"{s.tag}_c{i}") (Numbered ["sum"] (1 ≤ ·)) ⊆
      Below (path s!"{s.tag}_c{i}") (Worded ["sum"]) := numbered_subset_worded
    refine (placeStages_comes hb hs hs.admits
      (hfree.mono (hstages.trans (below_subset_under.trans hunder)))).bind ?_
    rintro r c₁ ⟨hle, hready, hproducts, p₁, h₁⟩
    have hfree₁ := h₁.builder.free (hfree.mono (hsums.trans (below_subset_under.trans hunder)))
      ((worded_disjoint (by decide)).mono hsums hstages)
    have h₁ := h₁.mono (hstages.trans (below_subset_under.trans hunder))
    obtain ⟨stages, ready⟩ := r
    rcases stages with _ | ⟨first, _ | ⟨second, others⟩⟩
    · exact .pure ⟨n, p₁, le_rfl, h₁⟩
    · obtain ⟨g, hg, -⟩ := hproducts first List.mem_cons_self
      exact (addOperand_comes h₁.builder.orderly hg).imp fun _ _ _ hr =>
        ⟨n, p₁, le_rfl, h₁.trans hr.1⟩
    · refine build_bind (defineAdder_comes (s.wx + s.wy - q.weight) h₁.builder.orderly hready) ?_
      rintro _ b₂ ⟨hdefines, h₂⟩
      have h₂ := h₂.of_le (le_max_left n ready.cycle)
      let c₂ : Contribution := { c₁ with builder := b₂ }
      have hothers : ∀ stage ∈ second :: others, c₂.builder.Has stage.product ready.cycle :=
        fun stage hstage => (hproducts stage (List.mem_cons_of_mem _ hstage)).mono h₂.later
      refine (addUp_comes (c := c₂) h₂.orderly ((hproducts first List.mem_cons_self).mono h₂.later)
        hothers hdefines (h₂.free hfree₁ (Set.disjoint_empty _))).bind ?_
      rintro sum c₃ ⟨p₃, hheap, hmade, hwidth, h₃⟩
      obtain ⟨g, hg, hcycle⟩ := hmade
      obtain ⟨_, hg', hwidth⟩ := hwidth
      obtain rfl := Option.some.inj (hg.symm.trans hg')
      refine (addOperand_comes (N := ∅) h₃.orderly hg).imp ?_
      rintro _ c₄ _ ⟨h₄, hbits⟩
      -- the top bit of the last sum is there when the sum is
      have htakes : c₃.heap.Takes
          (s.base + ((q.weight : ℤ) + (s.wx + s.wy - q.weight - 1 : ℕ))) := by
        rw [show (q.weight : ℤ) + (s.wx + s.wy - q.weight - 1 : ℕ) = (s.wx + s.wy - 1 : ℕ) by omega,
          hheap]
        exact BitHeap.takes_of_sameShape h₁.heap.shape htop
      obtain ⟨w, x, hx, hlast⟩ := hbits (s.wx + s.wy - q.weight - 1) (by omega) htakes
      have hall : c₁.builder.Reaches s.target (max n p₃.cycle) p₃
          (Below (path s!"{s.tag}_c{i}") (Numbered ["sum"] (1 ≤ ·))) c₄.builder :=
        h₂.quiet.trans (h₃.trans h₄.builder.quiet)
      refine ⟨max n p₃.cycle, p₃, le_max_left _ _, h₁.trans ⟨?_, ?_, fun k hk hby => ?_⟩⟩
      · exact hall.mono (hsums.trans (below_subset_under.trans hunder))
      · have hgrows := h₄.heap
        rwa [hheap] at hgrows
      · exact max_le hk ((hlast.trans hcycle).ge.trans (hby w x hx))

/-! ### Tilings -/

/-- Cascades fill the heap one after the other. -/
lemma addCascades_comes {ps : Array Tiling.Placement} {i : ℕ} {heads : List ℕ}
    (hb : c.builder.Orderly s.target n p) (hs : s.Ready n c.builder)
    (htop : c.heap.Takes (s.base + (s.wx + s.wy - 1 : ℕ)))
    (hheads : ∀ head ∈ heads, ∀ q ∈ Tiling.cascade ps head, q.weight < s.wx + s.wy)
    (hfree : c.builder.Free (Below (path s.tag) (Numbered ["c"] (i ≤ ·)))) :
    Comes (BuildError.Due s.target excused)
      (fun _ c' => ∃ m p', n ≤ m ∧
        c.Reaches s.target n m p' (Below (path s.tag) (Numbered ["c"] (i ≤ ·))) c')
      (s.addCascades ps i heads c) := by
  induction heads generalizing c i n p with
  | nil => exact .pure ⟨n, p, le_rfl, .refl hb⟩
  | cons head heads ih =>
    obtain ⟨hhead, hheads⟩ := List.forall_mem_cons.mp hheads
    refine (addCascade_comes hb hs htop hhead hfree.first).bind ?_
    rintro _ c₁ ⟨m₁, p₁, hle₁, h₁⟩
    refine (ih h₁.builder.orderly ((hs.mono h₁.builder.later).of_le hle₁)
      (BitHeap.takes_of_sameShape h₁.heap.shape htop) hheads (h₁.builder.free_rest hfree)).imp ?_
    rintro _ c₂ _ ⟨m₂, p₂, hle₂, h₂⟩
    exact ⟨m₂, p₂, hle₁.trans hle₂,
      (h₁.mono (numbered_subset (List.Subset.refl _) fun _ hk => hk.ge)).trans
        (h₂.mono (numbered_subset (List.Subset.refl _) fun _ hk => (Nat.le_succ i).trans hk))⟩

/-- So do rectangles of tables. -/
lemma addRegions_comes {regions : List Tiling.Rect} (hb : c.builder.Orderly s.target n p)
    (hs : s.Ready n c.builder) (hstart : s.start.Unspent)
    (hfree : c.builder.Free (Below (path s.tag) (Numbered ["t"] (c.builder.nextUid ≤ ·)))) :
    Comes (BuildError.Due s.target excused)
      (fun _ c' => ∃ p', c.Reaches s.target n n p' (Below (path s.tag) (Worded ["t"])) c')
      (s.addRegions regions c) := by
  induction regions generalizing c p with
  | nil => exact .pure ⟨p, .refl hb⟩
  | cons region regions ih =>
    refine (addTables_comes hb hs hstart hfree).bind ?_
    rintro _ c₁ ⟨p₁, h₁, hfree₁⟩
    refine (ih h₁.builder.orderly (hs.mono h₁.builder.later) hfree₁).imp ?_
    rintro _ c₂ _ ⟨p₂, h₂⟩
    exact ⟨p₂, h₁.trans h₂⟩

/-- A tiling fills the heap. -/
lemma addTiling_comes [Tiling.Surroundings] (hb : c.builder.Orderly s.target n p)
    (hs : s.Ready n c.builder) (hstart : s.start.Unspent)
    (htop : c.heap.Takes (s.base + (s.wx + s.wy - 1 : ℕ)))
    (hexcused : options.Excused s.target ⟨s.wx, s.wy⟩ excused)
    (hfree : c.builder.Free (Below (path s.tag) (Worded ["c", "t"]))) :
    Comes (BuildError.Due s.target excused)
      (fun _ c' => ∃ m p', c.Reaches s.target n m p' (Below (path s.tag) (Worded ["c", "t"])) c')
      (s.addTiling options c) := by
  refine build_bind (Build.ofExcept_comes fun e he => due_of_findTiling he hexcused) ?_
  rintro o _ ⟨ho, rfl⟩
  have hperm := Tiling.cascades_perm o.best.placements (max options.maxChain 1)
  have hheads : ∀ head ∈ (Tiling.chainPlacements o.best.placements (max options.maxChain 1)).1,
      ∀ q ∈ Tiling.cascade (Tiling.chainPlacements o.best.placements
        (max options.maxChain 1)).2 head, q.weight < s.wx + s.wy := by
    intro head hhead q hq
    exact corner_lt_of_findTiling ho _ (hperm.mem_iff.mp
      (List.mem_flatMap.mpr ⟨head, hhead, List.mem_map_of_mem hq⟩))
  have hcascades : Below (path s.tag) (Numbered ["c"] (0 ≤ ·)) ⊆
      Below (path s.tag) (Worded ["c"]) :=
    numbered_subset_worded
  refine (addCascades_comes hb hs htop hheads
    (hfree.mono (hcascades.trans (worded_subset (by decide))))).bind ?_
  rintro _ c₁ ⟨m₁, p₁, hle₁, h₁⟩
  have hfree₁ : c₁.builder.Free (Below (path s.tag) (Worded ["t"])) :=
    h₁.builder.free (hfree.mono (worded_subset (by decide)))
      ((worded_disjoint (by decide)).mono_right hcascades)
  refine (addRegions_comes h₁.builder.orderly ((hs.mono h₁.builder.later).of_le hle₁) hstart
    (hfree₁.mono numbered_subset_worded)).bind ?_
  rintro _ c₂ ⟨p₂, h₂⟩
  exact .pure ⟨m₁, p₂, (h₁.mono (hcascades.trans (worded_subset (by decide)))).trans
    (h₂.mono (worded_subset (by decide)))⟩

/-- The words that go on the names of a product. -/
def productWords : List String := ["tbl", "dsp", "pp", "t", "c"]

/-- A product fills the heap, whatever the way to compute it is. -/
lemma addProduct_comes [Tiling.Surroundings] {architecture : Architecture} {wx wy : ℕ}
    (hb : c.builder.Orderly s.target n p) (hs : s.Ready n c.builder) (hstart : s.start.Unspent)
    (htop : c.heap.Takes (s.base + (s.wx + s.wy - 1 : ℕ)))
    (hwx : c.builder.HasWidth s.x wx) (hwy : c.builder.HasWidth s.y wy)
    (hexcused : options.Excused s.target ⟨s.wx, s.wy⟩ excused)
    (hfree : c.builder.Free (Below (path s.tag) (Worded productWords))) :
    Comes (BuildError.Due s.target excused)
      (fun _ c' => ∃ m p', c.Reaches s.target n m p' (Below (path s.tag) (Worded productWords)) c')
      (s.addProduct options architecture c) := by
  have hwords (words : List String) (h : words ⊆ productWords) :
      Below (path s.tag) (Worded words) ⊆ Below (path s.tag) (Worded productWords) :=
    worded_subset h
  cases architecture with
  | singleTable =>
    refine (addTable_comes hb hs (hfree.mono (hwords _ (by decide)))).bind ?_
    rintro _ _ ⟨p', h'⟩
    exact .pure ⟨n, p', h'.mono (hwords _ (by decide))⟩
  | singleBlock =>
    refine (addBlock_comes hb hs hwx hwy (hfree.mono (hwords _ (by decide)))).bind ?_
    rintro _ _ ⟨p', h'⟩
    exact .pure ⟨n, p', h'.mono (hwords _ (by decide))⟩
  | rows =>
    refine (addRows_comes hb hs (hfree.mono (hwords _ (by decide)))).bind ?_
    rintro _ _ ⟨p', h'⟩
    exact .pure ⟨n, p', h'.mono (hwords _ (by decide))⟩
  | logic =>
    refine (addTables_comes hb hs hstart
      (hfree.mono (numbered_subset_worded.trans (hwords ["t"] (by decide))))).bind ?_
    rintro _ _ ⟨p', h', -⟩
    exact .pure ⟨n, p', h'.mono (hwords _ (by decide))⟩
  | tiling =>
    rw [addProduct, map_eq_pure_bind]
    refine (addTiling_comes hb hs hstart htop hexcused (hfree.mono (hwords _ (by decide)))).bind ?_
    rintro _ _ ⟨m, p', h'⟩
    exact .pure ⟨m, p', h'.mono (hwords _ (by decide))⟩

end Site

end Datapath
