/-
Additions keep a construction in order.

* `ChunkPlan.due_of_make`: a plan fails to add up only if a target has no size
  for chunks.
* `CarryIn.There`, `Addition.Ready`, `ChunkSums.There`: operands and sums that
  are there by some cycle.
* `Addition.ripple_comes`, `chunkSums_comes`, `select_comes`, …: what each part
  of an addition comes to. Sums are made from the point `start` on, so nothing
  but `start` limits when their operands have to be there.
* `carrySelect_comes`: an addition makes its sum behind all its uses.
-/
import Datapath.Proofs.Construction.Additions
import Datapath.Proofs.Construction.Primitives
import Datapath.Proofs.Words

namespace Datapath

open Build

variable {t : Target} {n : ℕ} {p : Instant} {b b' : Builder} {excused : ConsistencyFault → Prop}
  {width : ℕ} {N : Set String}

/-! ### Plans -/

/-- The sizes of chunks that make up a width, none of which is empty. -/
def FillsWidth (width : ℕ) (sizes : List ℕ) : Prop := sizes.sum = width ∧ 0 ∉ sizes

lemma FillsWidth.cons {size width : ℕ} {sizes : List ℕ} (h : FillsWidth (width - size) sizes)
    (hsize : 0 < size) (hle : size ≤ width) : FillsWidth width (size :: sizes) := by
  obtain ⟨hsum, hzero⟩ := h
  refine ⟨?_, fun hmem => (List.mem_cons.mp hmem).elim hsize.ne hzero⟩
  rw [List.sum_cons, hsum, Nat.add_sub_of_le hle]

lemma FillsWidth.singleton {width : ℕ} (h : 0 < width) : FillsWidth width [width] :=
  FillsWidth.cons ⟨(Nat.sub_self width).symm, List.not_mem_nil⟩ h le_rfl

lemma laterSizes_fills (t : Target) (budget inputSlack : Float)
    (remaining previous propagation : ℕ) :
    FillsWidth remaining (laterSizes t budget inputSlack remaining previous propagation).1 := by
  induction remaining, previous, propagation using laterSizes.induct t budget inputSlack with
  | case1 =>
    rw [laterSizes, if_pos rfl]
    exact ⟨rfl, List.not_mem_nil⟩
  | case2 remaining _ _ hpos _ _ hlast =>
    rw [laterSizes, if_neg hpos, if_pos hlast]
    exact .singleton (Nat.pos_of_ne_zero hpos)
  | case3 remaining previous propagation hpos carryDelay slack hlast size rest collapsed hrest ih =>
    rw [laterSizes, if_neg hpos, if_neg hlast]
    have hsize : 0 < size :=
      Nat.lt_min.mpr ⟨Nat.lt_of_lt_of_le Nat.zero_lt_one (Nat.le_max_right _ _),
        Nat.pos_of_ne_zero hpos⟩
    exact ih.cons hsize (Nat.min_le_right _ _)

lemma variableSizes_fills {width base : ℕ} (budget : Float) (hpos : 0 < base)
    (hword : 2 * base < 2 ^ 32) (hle : 2 * base ≤ width) :
    FillsWidth width (variableSizes t width base budget).1 := by
  have hlater (inputSlack : Float) :
      FillsWidth (width - base - base)
        (laterSizes t budget inputSlack (width - 2 * base) base 0).1 := by
    rw [Nat.sub_sub, ← Nat.two_mul]
    exact laterSizes_fills _ _ _ _ _ _
  rw [variableSizes, wrap32_of_lt hword]
  exact ((hlater _).cons hpos (by omega)).cons hpos (by omega)

lemma uniformSizes_fills {width : ℕ} (chunk : ℕ) (hpos : 0 < width) :
    FillsWidth width (uniformSizes width chunk) := by
  rw [uniformSizes]
  set size := max 1 (min chunk width) with hsize
  have hle : size ≤ width := by omega
  have hmod : width % size < size := Nat.mod_lt _ (by omega)
  set last := if width % size = 0 then size else width % size with hlast
  have hdvd : size ∣ width - last := by
    rw [hlast]
    split_ifs with hzero
    · exact Nat.dvd_sub (Nat.dvd_of_mod_eq_zero hzero) dvd_rfl
    · exact Nat.dvd_sub_mod width
  have hbounds : 0 < last ∧ last ≤ width := by
    rw [hlast]
    split_ifs <;> omega
  constructor
  · rw [List.sum_append, List.sum_replicate, List.sum_singleton, smul_eq_mul,
      Nat.div_mul_cancel hdvd, Nat.sub_add_cancel hbounds.2]
  · rw [List.mem_append, List.mem_replicate, List.mem_singleton]
    omega

/-- Sizes of chunks that make up the width if a target has sizes for chunks. -/
lemma ChunkPlan.due_of_ofSizes {width : ℕ} {sizes : List ℕ} {phase : PlanPhase} {e : BuildError}
    (hfills : 0 < t.chunk width → FillsWidth width sizes)
    (h : ofSizes width sizes phase = .error e) : e.Due t excused := by
  rw [ofSizes] at h
  split at h
  case isTrue => cases h
  case isFalse hmiss =>
    cases h
    exact .inr ⟨_, _, width, rfl, Nat.eq_zero_of_not_pos fun hchunk => hmiss (hfills hchunk)⟩

/-- A plan that fails to add up, for a width of more than 31 bits. -/
lemma ChunkPlan.due_of_wide {width : ℕ} {sizes : List ℕ} {phase : PlanPhase} {e : BuildError}
    (hwide : ∀ sizes sum, excused (.chunksMissWidth sizes sum width))
    (h : ofSizes width sizes phase = .error e) : e.Due t excused := by
  rw [ofSizes] at h
  split at h <;> cases h
  exact .inl (hwide _ _)

/-- A plan fails to add up only if a target has no size for chunks, or twice a chunk
has more than 32 bits. -/
lemma ChunkPlan.due_of_make {width : ℕ} {budget : Float} {e : BuildError}
    (hwide : ExcusesWide excused width) (h : make t width budget = .error e) :
    e.Due t excused := by
  rw [make] at h
  dsimp only at h
  split_ifs at h with hempty hbudget hsingle hdouble hcollapsed
  · cases h
    trivial
  · cases h
    trivial
  · exact due_of_ofSizes (fun _ => .singleton (Nat.pos_of_ne_zero hempty)) h
  · refine due_of_ofSizes (fun hchunk => ?_) h
    exact (FillsWidth.singleton (by omega)).cons hchunk (by omega)
  · exact due_of_ofSizes (fun _ => uniformSizes_fills _ (Nat.pos_of_ne_zero hempty)) h
  · rcases Nat.lt_or_ge (2 ^ 31) width with hlarge | hsmall
    · exact due_of_wide (hwide hlarge) h
    · have hword : 2 * t.chunk width < 2 ^ 32 := by omega
      rw [wrap32_of_lt hword] at hdouble
      exact due_of_ofSizes (fun hchunk => variableSizes_fills _ hchunk hword (by omega)) h

/-! ### Ripple-carry adders -/

lemma formals_rippleName (width : ℕ) : formals (rippleName width) = ["X", "Y", "Cin"] := by
  simp [formals, rippleName, toString]

lemma rippleComponent_isElement (width : ℕ) : (rippleComponent width).IsElement t :=
  Component.primitive_isElement (.adder width) (by simp [formals_rippleName])

/-- The carry into an adder is there by cycle `n`. -/
def CarryIn.There (carry : CarryIn) (b : Builder) (n : ℕ) : Prop :=
  match carry with
  | constant _ => True
  | signal id => b.Has id n

lemma CarryIn.there_constant (bit : Bool) : (constant bit).There b n := trivial

lemma CarryIn.there_signal {id : SignalId} (h : b.Has id n) : (signal id).There b n := h

lemma CarryIn.There.mono {carry : CarryIn} (h : carry.There b n) (hle : b ≤ b') :
    carry.There b' n := by
  cases carry with
  | constant => trivial
  | signal => exact Builder.Has.mono h hle

lemma CarryIn.bind_comes {carry : CarryIn} (hb : b.Orderly t n p) (hcarry : carry.There b p.cycle)
    (hn : p.cycle ≤ n) :
    Comes (BuildError.Due t excused) (fun q b' => q.formal = "Cin" ∧ b.Reaches t n p ∅ b')
      (carry.bind b) := by
  cases carry with
  | constant => exact ⟨rfl, .refl hb⟩
  | signal => exact (read_comes hb hcarry hn).bind fun _ _ h₁ => .pure ⟨rfl, h₁⟩

namespace Addition

/-- An adder makes its sum. -/
lemma ripple_comes {label : String} {x : SignalId} {y : Option SignalId} {carry : CarryIn}
    (hb : b.Orderly t n p) (hn : p.cycle ≤ n) (hx : b.Has x p.cycle)
    (hy : ∀ y' ∈ y, b.Has y' p.cycle) (hcarry : carry.There b p.cycle)
    (hname : s!"{label}_R" ∈ N) (hfree : b.Free N) :
    Comes (BuildError.Due t excused) (b.Makes t n p N width)
      (ripple t label x y carry width b) := by
  have hrest : ∀ (xUse : SignalRef) (yPort : PortBinding) (b' : Builder), yPort.formal = "Y" →
      b'.Defines (rippleName width) → b.Reaches t n p ∅ b' →
      Comes (BuildError.Due t excused) (b.Makes t n p N width) ((do
        let carryPort ← carry.bind
        let _ ← Build.advance (t.adderDelay width) (rippleName width)
        let out ← Build.declare s!"{label}_R" width
        let _ ← Build.instantiate (rippleName width) label [.signal "X" xUse, yPort, carryPort]
        return out : Build SignalId) b') := by
    intro xUse yPort b' hyPort hdefines h'
    refine (CarryIn.bind_comes h'.orderly (hcarry.mono h'.later) hn).bind ?_
    rintro carryPort b₁ ⟨hcarryPort, h₁'⟩
    have h₁ := h'.trans h₁'
    have hports : ∀ q ∈ [.signal "X" xUse, yPort, carryPort],
        q.formal ∈ formals (rippleName width) := by
      simp [formals_rippleName, hyPort, hcarryPort]
    refine (element_comes h₁.orderly (h₁'.defines _ hdefines) hports hname ?_).imp
      fun _ _ _ => h₁.quiet.makes
    exact h₁.free hfree (Set.disjoint_empty _)
  refine (addSubcomponent_comes hb (rippleComponent_isElement width)).bind ?_
  rintro _ b₁ ⟨hdefines, h₁⟩
  refine (read_comes h₁.orderly (hx.mono h₁.later) hn).bind fun xUse b₂ h₂ => ?_
  have hboth := h₁.trans h₂
  cases y with
  | none => exact hrest xUse _ b₂ rfl (h₂.defines _ hdefines) hboth
  | some y =>
    refine (read_comes hboth.orderly ((hy y rfl).mono hboth.later) hn).bind fun yUse b₃ h₃ => ?_
    exact hrest xUse _ b₃ rfl (h₃.defines _ (h₂.defines _ hdefines)) (hboth.trans h₃)

/-! ### Chunks -/

/-- The operands of an addition are there by cycle `n`. -/
structure Ready (a : Addition) (b : Builder) (n : ℕ) : Prop where
  x : b.Has a.x n
  y : b.Has a.y n
  carryIn : a.carryIn.There b n

lemma Ready.mono {a : Addition} (h : a.Ready b n) (hle : b ≤ b') : a.Ready b' n :=
  ⟨h.x.mono hle, h.y.mono hle, h.carryIn.mono hle⟩

end Addition

/-- The sums of a chunk are there by cycle `n`. -/
structure ChunkSums.There (s : ChunkSums) (b : Builder) (n : ℕ) : Prop where
  plain : b.Has s.plain n
  raised : ∀ raised ∈ s.raised, b.Has raised n

lemma ChunkSums.There.mono {s : ChunkSums} (h : s.There b n) (hle : b ≤ b') : s.There b' n :=
  ⟨h.plain.mono hle, fun raised hraised => (h.raised raised hraised).mono hle⟩

lemma ChunkSums.There.of_le {s : ChunkSums} {m : ℕ} (h : s.There b n) (hle : n ≤ m) :
    s.There b m :=
  ⟨h.plain.of_le hle, fun raised hraised => (h.raised raised hraised).of_le hle⟩

namespace Addition

variable {a : Addition} {start latest : Instant}

/-- The names of an addition that go on with one of some words and one of some
numbers. -/
def names (a : Addition) (words : List String) (I : ℕ → Prop) : Set String :=
  Below (path a.tag) (Numbered words I)

/-- What the names of the sums of chunks go on with. -/
def sumWords : List String := ["sX", "sY", "cin", "zero", "one"]

/-- One of the adders of a chunk, behind its operands. -/
lemma chunkAdder_comes {label w : String} {j : ℕ} {words : List String} {sx sy : SignalId}
    {carry : CarryIn} (h : b.Reaches a.target n start (a.names words (· = j)) b')
    (hn : start.cycle ≤ n) (hsx : b'.Has sx start.cycle) (hsy : b'.Has sy start.cycle)
    (hcarry : carry.There b' start.cycle) (hname : s!"{label}_R" ∈ a.names [w] (· = j))
    (hfree : b.Free (a.names sumWords (· = j))) (hw : [w] ⊆ sumWords) (hnew : w ∉ words) :
    Comes (BuildError.Due a.target excused)
      (fun sum b'' => ∃ p', b''.Has sum p'.cycle ∧ b' ≤ b'' ∧
        b.Reaches a.target n p' (a.names (words ++ [w]) (· = j)) b'')
      (ripple a.target label sx (some sy) carry width b') := by
  have hsy' : ∀ y ∈ some sy, b'.Has y start.cycle := by
    rintro y ⟨⟩
    exact hsy
  have hfree' : b'.Free (a.names [w] (· = j)) := h.free_numbered hfree hw (by simpa using hnew)
  refine (ripple_comes h.orderly hn hsx hsy' hcarry hname hfree').imp ?_
  rintro sum b'' _ ⟨p', -, -, hsum, -, h'⟩
  exact ⟨p', hsum.has, h'.later, h.append_numbered h'⟩

/-- The sums of a chunk are there by the latest point in time. -/
lemma chunkSums_comes {j : ℕ} {c : Chunk} {last : Bool} (hb : b.Orderly a.target n p)
    (hstart : a.target.Admits start) (hn : start.cycle ≤ n)
    (hready : a.Ready b start.cycle) (hlatest : a.target.Admits latest)
    (hfree : b.Free (a.names sumWords (· = j))) :
    Comes (BuildError.Due a.target excused)
      (fun r b' => latest.cycle ≤ r.2.cycle ∧ a.target.Admits r.2 ∧
        r.1.There b' r.2.cycle ∧ ∃ p', b.Reaches a.target n p' (a.names sumWords (· = j)) b')
      (a.chunkSums start latest j c last b) := by
  refine (moveTo_comes hb hstart).bind fun _ b₁ h₁ => ?_
  refine (read_comes h₁.orderly (hready.x.mono h₁.later) hn).bind fun xUse b₂ h₂ => ?_
  have h₂ := h₁.trans h₂
  refine (read_comes h₂.orderly (hready.y.mono h₂.later) hn).bind fun yUse b₃ h₃ => ?_
  have h₃ : b.Reaches a.target n start (a.names [] (· = j)) b₃ := (h₂.trans h₃).quiet
  refine (declare_comes (N := a.names ["sX"] (· = j)) h₃.orderly
    ⟨"sX".toList ++ digits j, by simp [Numbered, Worded], by simp [Under, path, toString, cut]⟩
    (h₃.free_numbered hfree (by decide) (by decide))).bind ?_
  rintro sx b₄ ⟨hsx, -, h₄⟩
  have h₄ := h₃.append_numbered h₄
  refine (declare_comes (N := a.names ["sY"] (· = j)) h₄.orderly
    ⟨"sY".toList ++ digits j, by simp [Numbered, Worded], by simp [Under, path, toString, cut]⟩
    (h₄.free_numbered hfree (by decide) (by decide))).bind ?_
  rintro sy b₅ ⟨hsy, -, h₅⟩
  have hsy := hsy.has
  have hsx := (hsx.mono h₅.later).has
  have h₅ := h₄.append_numbered h₅
  split
  case isTrue hj =>
    subst hj
    refine (chunkAdder_comes (w := "cin") h₅ hn hsx hsy (hready.carryIn.mono h₅.later)
      ⟨"cin0".toList, ⟨by simp [Worded], 0, rfl, by simp⟩, by simp [Under, path, toString, cut]⟩
      hfree (by decide) (by decide)).bind ?_
    rintro sum b₆ ⟨p', hsum, -, h₆⟩
    refine now_bind h₆.orderly (.pure ?_)
    refine ⟨latest.le_later_left p', Target.admits_later hlatest h₆.orderly.admits, ?_, p', ?_⟩
    · exact ⟨hsum.of_le (latest.le_later_right p'), by simp⟩
    · exact h₆.mono (numbered_subset (by decide) fun _ hi => hi)
  case isFalse hj =>
    refine (chunkAdder_comes (w := "zero") h₅ hn hsx hsy (CarryIn.there_constant false)
      ⟨"zero".toList ++ digits j, by simp [Numbered, Worded], by simp [Under, path, toString, cut]⟩
      hfree (by decide) (by decide)).bind ?_
    rintro plain b₆ ⟨p', hplain, hle, h₆⟩
    refine now_bind h₆.orderly ?_
    have hadmits := Target.admits_later hlatest h₆.orderly.admits
    have hplain := hplain.of_le (latest.le_later_right p')
    split
    case isTrue =>
      refine .pure ⟨latest.le_later_left p', hadmits, ?_, p', ?_⟩
      · exact ⟨hplain, by simp⟩
      · exact h₆.mono (numbered_subset (by decide) fun _ hi => hi)
    case isFalse =>
      refine (moveTo_comes h₆.orderly hstart).bind fun _ b₇ h₇ => ?_
      have hle := hle.trans h₇.later
      have hplain := hplain.mono h₇.later
      have h₇ := h₆.trans h₇.quiet
      refine (chunkAdder_comes (w := "one") h₇ hn (hsx.mono hle) (hsy.mono hle)
        (CarryIn.there_constant true)
        ⟨"one".toList ++ digits j, by simp [Numbered, Worded], by simp [Under, path, toString, cut]⟩
        hfree (by decide) (by decide)).bind ?_
      rintro raised b₈ ⟨p'', hraised, hle', h₈⟩
      refine now_bind h₈.orderly (.pure ?_)
      have hlater := (latest.later p').le_later_left p''
      refine ⟨(latest.le_later_left p').trans hlater, Target.admits_later hadmits h₈.orderly.admits,
        ⟨?_, ?_⟩, p'', ?_⟩
      · exact (hplain.mono hle').of_le hlater
      · rintro _ ⟨⟩
        exact hraised.of_le ((latest.later p').le_later_right p'')
      · exact h₈.mono (numbered_subset (by decide) fun _ hi => hi)

/-- So are the sums of the chunks from some chunk on. -/
lemma sums_comes {j : ℕ} {cs : List Chunk} (hb : b.Orderly a.target n p)
    (hstart : a.target.Admits start) (hn : start.cycle ≤ n)
    (hready : a.Ready b start.cycle) (hlatest : a.target.Admits latest)
    (hfree : b.Free (a.names sumWords (j ≤ ·))) :
    Comes (BuildError.Due a.target excused)
      (fun r b' => latest.cycle ≤ r.2.cycle ∧ a.target.Admits r.2 ∧
        (∀ s ∈ r.1, s.There b' r.2.cycle) ∧
        ∃ p', b.Reaches a.target n p' (a.names sumWords (j ≤ ·)) b')
      (a.sums start j cs latest b) := by
  induction cs generalizing b p j latest with
  | nil => exact .pure ⟨le_rfl, hlatest, fun _ hs => absurd hs List.not_mem_nil, p, .refl hb⟩
  | cons c cs ih =>
    refine (chunkSums_comes hb hstart hn hready hlatest hfree.first).bind ?_
    rintro ⟨sum, latest₁⟩ b₁ ⟨hle₁, hadmits₁, hsum, p₁, h₁⟩
    refine (ih h₁.orderly (hready.mono h₁.later) hadmits₁ (h₁.free_rest hfree)).bind ?_
    rintro ⟨rest, latest₂⟩ b₂ ⟨hle₂, hadmits₂, hrest, p₂, h₂⟩
    refine .pure ⟨hle₁.trans hle₂, hadmits₂, List.forall_mem_cons.mpr ⟨?_, hrest⟩, p₂,
      h₁.cons_numbered h₂⟩
    exact (hsum.mono h₂.later).of_le hle₂

/-! ### Carries -/

/-- Signals that are there can be used. -/
lemma readAll_comes {ids : List SignalId} (hb : b.Orderly t n p) (hn : p.cycle ≤ n)
    (hids : ∀ id ∈ ids, b.Has id p.cycle) :
    Comes (BuildError.Due t excused) (fun _ b' => b.Reaches t n p ∅ b') (readAll ids b) := by
  induction ids generalizing b with
  | nil => exact .pure (.refl hb)
  | cons id ids ih =>
    obtain ⟨hid, hids⟩ := List.forall_mem_cons.mp hids
    refine (read_comes hb hid hn).bind fun _ b₁ h₁ => ?_
    refine (ih h₁.orderly fun id hid => (hids id hid).mono h₁.later).imp fun _ b₂ _ h₂ => ?_
    exact h₁.trans h₂

lemma readSums_comes {sums : List ChunkSums} (hb : b.Orderly t n p) (hn : p.cycle ≤ n)
    (hsums : ∀ s ∈ sums, s.There b p.cycle) :
    Comes (BuildError.Due t excused) (fun _ b' => b.Reaches t n p ∅ b') (readSums sums b) := by
  induction sums generalizing b with
  | nil => exact .pure (.refl hb)
  | cons s sums ih =>
    obtain ⟨hs, hsums⟩ := List.forall_mem_cons.mp hsums
    have hrest : ∀ b', b.Reaches t n p ∅ b' →
        Comes (BuildError.Due t excused) (fun _ b' => b.Reaches t n p ∅ b') (readSums sums b') := by
      intro b' h'
      refine (ih h'.orderly fun s hs => (hsums s hs).mono h'.later).imp fun _ _ _ h'' => ?_
      exact h'.trans h''
    refine (read_comes hb hs.plain hn).bind fun _ b₁ h₁ => ?_
    cases hraised : s.raised with
    | none => exact hrest b₁ h₁
    | some raised =>
      refine (read_comes h₁.orderly ((hs.raised raised hraised).mono h₁.later) hn).bind
        fun _ b₂ h₂ => hrest b₂ (h₁.trans h₂)

/-- What the names of the addition that resolves the carries go on with. -/
def carryWords : List String := ["carryStringZero", "carryStringOne", "cout", "rawCarrySum"]

/-- The carries are there, if there are any. -/
lemma rawCarries_comes {first : ChunkSums} {middle : List ChunkSums}
    (hb : b.Orderly a.target p.cycle p) (hfirst : first.There b p.cycle)
    (hmiddle : ∀ s ∈ middle, s.There b p.cycle)
    (hfree : b.Free (Below (path a.tag) (Worded carryWords))) :
    Comes (BuildError.Due a.target excused)
      (fun raw b' => ∃ p', p.cycle ≤ p'.cycle ∧ (∀ id ∈ raw, b'.Has id p'.cycle) ∧
        b.Reaches a.target p'.cycle p' (Below (path a.tag) (Worded carryWords)) b')
      (a.rawCarries first middle b) := by
  rw [rawCarries]
  split
  case isTrue =>
    refine (nextCycle_comes hb).bind ?_
    rintro _ b₁ ⟨p', hle, h₁⟩
    exact .pure ⟨p', hle, by simp, h₁.quiet.of_le hle⟩
  case isFalse =>
    refine (readSums_comes hb le_rfl hmiddle).bind fun _ b₁ h₁ => ?_
    have h₁ : b.Reaches a.target p.cycle p (Below (path a.tag) (Worded [])) b₁ := h₁.quiet
    refine (declare_comes (N := Below (path a.tag) (Worded ["carryStringZero"])) h₁.orderly
      (mem_worded (by decide))
      (h₁.free_words hfree (by decide) (by decide))).bind ?_
    rintro zeros b₂ ⟨hzeros, -, h₂⟩
    have h₂ := h₁.append h₂
    refine (declare_comes (N := Below (path a.tag) (Worded ["carryStringOne"])) h₂.orderly
      (mem_worded (by decide))
      (h₂.free_words hfree (by decide) (by decide))).bind ?_
    rintro ones b₃ ⟨hones, -, h₃⟩
    have hzeros := (hzeros.mono h₃.later).has
    have h₃ := h₂.append h₃
    refine (nextCycle_comes h₃.orderly).bind ?_
    rintro _ b₄ ⟨p', hle, h₄⟩
    have hzeros := (hzeros.mono h₄.later).of_le hle
    have hones := (hones.mono h₄.later).has.of_le hle
    have h₄ := (h₃.trans h₄.quiet).of_le hle
    refine (read_comes h₄.orderly ((hfirst.plain.mono h₄.later).of_le hle) le_rfl).bind
      fun _ b₅ h₅ => ?_
    have hzeros := hzeros.mono h₅.later
    have hones := hones.mono h₅.later
    have h₅ := h₄.trans h₅.quiet
    refine (declare_comes (N := Below (path a.tag) (Worded ["cout"])) h₅.orderly
      (mem_worded (by decide))
      (h₅.free_words hfree (by decide) (by decide))).bind ?_
    rintro carry b₆ ⟨hcarry, -, h₆⟩
    have hones := hones.mono h₆.later
    have hzeros' : ∀ y ∈ some zeros, b₆.Has y p'.cycle := by
      rintro y ⟨⟩
      exact hzeros.mono h₆.later
    have h₆ := h₅.append h₆
    refine (ripple_comes (N := Below (path a.tag) (Worded ["rawCarrySum"])) h₆.orderly le_rfl hones
      hzeros' (CarryIn.there_signal hcarry.has)
      ⟨"rawCarrySum".toList, by simp [Worded], by simp [Under, path, toString, cut]⟩
      (h₆.free_words hfree (by decide) (by decide))).bind ?_
    rintro raw b₇ ⟨p'', hle', -, hraw, -, h₇⟩
    refine .pure ⟨p'', hle.trans hle', ?_, (h₆.append h₇).of_le hle'⟩
    rintro _ ⟨⟩
    exact hraw.has

/-! ### Selection -/

/-- What the names of the selected sums go on with. -/
def selectWords : List String := ["carry", "res"]

/-- The final sum of a chunk is there where it is made. -/
lemma selectChunk_comes {first s : ChunkSums} {raw : Option SignalId} {i : ℕ} {c : Chunk}
    (hb : b.Orderly a.target n p) (hstart : a.target.Admits start)
    (hn : start.cycle ≤ n) (hfirst : first.There b start.cycle)
    (hraw : ∀ id ∈ raw, b.Has id start.cycle) (hs : s.There b start.cycle)
    (hfree : b.Free (a.names selectWords (· = i))) :
    Comes (BuildError.Due a.target excused)
      (fun sum b' => ∃ p', b'.Has sum p'.cycle ∧
        b.Reaches a.target n p' (a.names selectWords (· = i)) b')
      (a.selectChunk start first raw i c s b) := by
  refine (moveTo_comes hb hstart).bind fun _ b₁ h₁ => ?_
  have hrest : ∀ id, b.Has id start.cycle →
      Comes (BuildError.Due a.target excused)
        (fun sum b' => ∃ p', b'.Has sum p'.cycle ∧
          b.Reaches a.target n p' (a.names selectWords (· = i)) b')
        ((do
          let carry ← Build.read id
          let bit ← Build.declare s!"{a.tag}_carry{i}_{carry.delay}" 1
          ripple a.target s!"{a.tag}_res{i}" s.plain none (.signal bit) c.size :
            Build SignalId) b₁) := by
    intro id hid
    refine (read_comes h₁.orderly (hid.mono h₁.later) hn).bind fun carry b₂ h₂ => ?_
    have h₂ : b.Reaches a.target n start (a.names [] (· = i)) b₂ := (h₁.trans h₂).quiet
    refine (declare_comes (N := a.names ["carry"] (· = i)) h₂.orderly
      ⟨"carry".toList ++ digits i, by simp [Numbered, Worded],
        by simp [Under, path, toString, cut]⟩
      (h₂.free_numbered hfree (by decide) (by decide))).bind ?_
    rintro bit b₃ ⟨hbit, -, h₃⟩
    have h₃ := h₂.append_numbered h₃
    refine (ripple_comes (N := a.names ["res"] (· = i)) h₃.orderly hn (hs.plain.mono h₃.later)
      (by simp) (CarryIn.there_signal hbit.has)
      ⟨"res".toList ++ digits i, by simp [Numbered, Worded], by simp [Under, path, toString, cut]⟩
      (h₃.free_numbered hfree (by decide) (by decide))).imp ?_
    rintro sum b₄ _ ⟨p', -, -, hsum, -, h₄⟩
    exact ⟨p', hsum.has, h₃.append_numbered h₄⟩
  -- the carry comes from the first chunk or from the addition of the carries
  cases raw with
  | none => exact hrest _ hfirst.plain
  | some raw =>
    refine hrest _ ?_
    split
    · exact hfirst.plain
    · exact hraw raw rfl

/-- So are the final sums of the chunks from some chunk on. -/
lemma select_comes {first : ChunkSums} {raw : Option SignalId} {i : ℕ}
    {rest : List (Chunk × ChunkSums)} (hb : b.Orderly a.target n p)
    (hstart : a.target.Admits start) (hn : start.cycle ≤ n)
    (hfirst : first.There b start.cycle) (hraw : ∀ id ∈ raw, b.Has id start.cycle)
    (hrest : ∀ cs ∈ rest, cs.2.There b start.cycle) (hlatest : a.target.Admits latest)
    (hfree : b.Free (a.names selectWords (i ≤ ·))) :
    Comes (BuildError.Due a.target excused)
      (fun r b' => latest.cycle ≤ r.2.cycle ∧ a.target.Admits r.2 ∧
        (∀ id ∈ r.1, b'.Has id r.2.cycle) ∧
        ∃ p', b.Reaches a.target n p' (a.names selectWords (i ≤ ·)) b')
      (a.select start first raw i rest latest b) := by
  induction rest generalizing b p i latest with
  | nil => exact .pure ⟨le_rfl, hlatest, by simp, p, .refl hb⟩
  | cons head rest ih =>
    obtain ⟨hhead, hrest⟩ := List.forall_mem_cons.mp hrest
    refine (selectChunk_comes hb hstart hn hfirst hraw hhead hfree.first).bind ?_
    rintro sum b₁ ⟨p₁, hsum, h₁⟩
    refine now_bind h₁.orderly ?_
    refine (ih h₁.orderly (hfirst.mono h₁.later) (fun id hid => (hraw id hid).mono h₁.later)
      (fun cs hcs => (hrest cs hcs).mono h₁.later)
      (Target.admits_later hlatest h₁.orderly.admits) (h₁.free_rest hfree)).bind ?_
    rintro ⟨sums, latest₂⟩ b₂ ⟨hle₂, hadmits₂, hsums, p₂, h₂⟩
    refine .pure ⟨(latest.le_later_left p₁).trans hle₂, hadmits₂,
      List.forall_mem_cons.mpr ⟨?_, hsums⟩, p₂, h₁.cons_numbered h₂⟩
    exact (hsum.mono h₂.later).of_le ((latest.le_later_right p₁).trans hle₂)

/-- What the names of the last part of an addition go on with. -/
def lastWords : List String := ["carry", "res", "R"]

/-- The sum is there as soon as the selected sums are. -/
lemma selection_comes {first : ChunkSums} {raw : Option SignalId} {low : Chunk}
    {others : List Chunk} {sums : List ChunkSums} (hb : b.Orderly a.target p.cycle p)
    (hfirst : first.There b p.cycle) (hraw : ∀ id ∈ raw, b.Has id p.cycle)
    (hsums : ∀ s ∈ sums, s.There b p.cycle)
    (hfree : b.Free (Below (path a.tag) (Worded lastWords))) :
    Comes (BuildError.Due a.target excused)
      (b.Concludes a.target (Below (path a.tag) (Worded lastWords))) ((do
        let start ← now
        let _ ← Build.read first.plain
        let low ← Build.declare s!"{a.tag}_res0" low.size
        let (high, ready) ← a.select start first raw 1 (others.zip sums) start
        Build.moveTo ready
        readAll (low :: high)
        Build.declare s!"{a.tag}_R" width : Build SignalId) b) := by
  have hnames {words : List String} {I : ℕ → Prop} (h : words ⊆ lastWords) :
      a.names words I ⊆ Below (path a.tag) (Worded lastWords) :=
    numbered_subset_worded.trans (worded_subset h)
  refine now_bind hb ?_
  refine (read_comes hb hfirst.plain le_rfl).bind fun _ b₁ h₁ => ?_
  refine (declare_comes (N := a.names ["res"] (· = 0)) h₁.orderly
    ⟨"res0".toList, ⟨by simp [Worded], 0, rfl, by simp⟩, by simp [Under, path, toString, cut]⟩
    (h₁.free (hfree.mono (hnames (by decide))) (Set.disjoint_empty _))).bind ?_
  rintro low b₂ ⟨hlow, -, h₂⟩
  have h₂ := h₁.quiet.trans h₂
  have hfree₂ : b₂.Free (a.names selectWords (1 ≤ ·)) :=
    h₂.free (hfree.mono (hnames (by decide))) (numbered_disjoint fun i hi => by omega)
  have hothers : ∀ cs ∈ others.zip sums, cs.2.There b₂ p.cycle := fun cs hcs =>
    (hsums cs.2 (List.of_mem_zip hcs).2).mono h₂.later
  refine (select_comes h₂.orderly h₂.orderly.admits le_rfl (hfirst.mono h₂.later)
    (fun id hid => (hraw id hid).mono h₂.later) hothers h₂.orderly.admits hfree₂).bind ?_
  rintro ⟨high, ready⟩ b₃ ⟨hready, hadmits, hhigh, p₃, h₃⟩
  have hlow := (hlow.mono h₃.later).has.of_le hready
  have h₃ : b.Reaches a.target ready.cycle p₃ (Below (path a.tag) (Worded selectWords)) b₃ :=
    ((h₂.mono (numbered_subset_worded.trans (worded_subset (by decide)))).trans
      (h₃.mono numbered_subset_worded)).of_le hready
  refine (moveTo_comes h₃.orderly hadmits).bind fun _ b₄ h₄ => ?_
  have hall : ∀ id ∈ low :: high, b₄.Has id ready.cycle :=
    List.forall_mem_cons.mpr ⟨hlow.mono h₄.later, fun id hid => (hhigh id hid).mono h₄.later⟩
  have h₄ := h₃.trans h₄.quiet
  refine (readAll_comes h₄.orderly le_rfl hall).bind fun _ b₅ h₅ => ?_
  have h₅ := h₄.trans h₅.quiet
  refine (declare_comes (N := Below (path a.tag) (Worded ["R"])) h₅.orderly
    (mem_worded (by decide))
    (h₅.free_words hfree (by decide) (by decide))).imp ?_
  rintro out b₆ _ ⟨hout, -, h₆⟩
  exact ⟨ready, hout.has, h₅.append h₆⟩

/-! ### Whole additions -/

/-- An addition in chunks makes its sum behind all its uses. -/
lemma chunked_comes {plan : ChunkPlan} {first : Chunk} {others : List Chunk}
    (hb : b.Orderly a.target p.cycle p) (hready : a.Ready b p.cycle)
    (hfree : b.Free (Under (path a.tag))) :
    Comes (BuildError.Due a.target excused) (b.Concludes a.target (Under (path a.tag)))
      (a.chunked plan first others b) := by
  have hnames {words : List String} {I : ℕ → Prop} : b.Free (a.names words I) :=
    hfree.mono below_subset_under
  refine now_bind hb ?_
  refine (chunkSums_comes hb hb.admits le_rfl hready hb.admits hnames).bind ?_
  rintro ⟨firstSums, ready₁⟩ b₁ ⟨hle₁, hadmits₁, hfirst, p₁, h₁⟩
  have hfree₁ : b₁.Free (a.names sumWords (1 ≤ ·)) :=
    h₁.free hnames (numbered_disjoint fun i hi => by omega)
  refine (sums_comes h₁.orderly hb.admits le_rfl (hready.mono h₁.later) hadmits₁ hfree₁).bind ?_
  rintro ⟨otherSums, ready₂⟩ b₂ ⟨hle₂, hadmits₂, hothers, p₂, h₂⟩
  have hfirst := (hfirst.mono h₂.later).of_le hle₂
  have h₂ : b.Reaches a.target ready₂.cycle p₂ (Below (path a.tag) (Worded sumWords)) b₂ :=
    ((h₁.mono numbered_subset_worded).trans (h₂.mono numbered_subset_worded)).of_le
      (hle₁.trans hle₂)
  refine (moveTo_comes h₂.orderly hadmits₂).bind fun _ b₃ h₃ => ?_
  have hfirst := hfirst.mono h₃.later
  have hothers : ∀ s ∈ otherSums, s.There b₃ ready₂.cycle := fun s hs =>
    (hothers s hs).mono h₃.later
  have h₃ := h₂.trans h₃.quiet
  refine (rawCarries_comes h₃.orderly hfirst
    (fun s hs => hothers s (List.dropLast_subset _ hs))
    (h₃.free (hfree.mono below_subset_under) (worded_disjoint (by decide)))).bind ?_
  rintro raw b₄ ⟨p₄, hle₄, hraw, h₄⟩
  have h₄' := h₃.append h₄
  have hselect : ∀ b' p', p₄.cycle ≤ p'.cycle → b₄.Reaches a.target p'.cycle p' ∅ b' →
      Comes (BuildError.Due a.target excused) (b.Concludes a.target (Under (path a.tag))) ((do
        let start ← now
        let _ ← Build.read firstSums.plain
        let low ← Build.declare s!"{a.tag}_res0" first.size
        let (high, ready) ← a.select start firstSums raw 1 (others.zip otherSums) start
        Build.moveTo ready
        readAll (low :: high)
        Build.declare s!"{a.tag}_R" plan.width : Build SignalId) b') := by
    intro b' p' hle h
    have hlater := h₄.later.trans h.later
    have hraw : ∀ id ∈ raw, b'.Has id p'.cycle := fun id hid =>
      ((hraw id hid).mono h.later).of_le hle
    have h := h₄'.trans h.quiet
    refine (selection_comes h.orderly ((hfirst.mono hlater).of_le (hle₄.trans hle)) hraw
      (fun s hs => ((hothers s hs).mono hlater).of_le (hle₄.trans hle))
      (h.free (hfree.mono below_subset_under) (worded_disjoint (by decide)))).imp
        fun out b'' _ hout => ?_
    exact (h.mono below_subset_under).concludes (hout.mono below_subset_under)
  split
  case isTrue =>
    refine (nextCycle_comes h₄.orderly).bind ?_
    rintro _ b₅ ⟨p₅, hle₅, h₅⟩
    refine (diagnose_comes h₅.orderly _).bind fun _ b₆ h₆ => ?_
    exact hselect b₆ p₅ hle₅ ((h₅.trans h₆).of_le hle₅)
  case isFalse => exact hselect b₄ p₄ le_rfl (.refl h₄.orderly)

/-- So does an addition by any plan, for which one adder may do. -/
lemma planned_comes {plan : ChunkPlan} (hb : b.Orderly a.target p.cycle p)
    (hready : a.Ready b p.cycle) (hfree : b.Free (Under (path a.tag))) :
    Comes (BuildError.Due a.target excused)
      (fun r b' => b.Concludes a.target (Under (path a.tag)) r.result b')
      ((match plan.phase, plan.chunks with
        | .single, _ | _, [] => do
          return ⟨← ripple a.target s!"{a.tag}_add" a.x (some a.y) a.carryIn width, plan⟩
        | _, first :: others => do
          return ⟨← a.chunked plan first others, plan⟩ : Build CarrySelect) b) := by
  have hsingle : Comes (BuildError.Due a.target excused) (b.Concludes a.target (Under (path a.tag)))
      (ripple a.target s!"{a.tag}_add" a.x (some a.y) a.carryIn width b) := by
    have hy : ∀ y ∈ some a.y, b.Has y p.cycle := by
      rintro y ⟨⟩
      exact hready.y
    let adder := s!"{a.tag}_add"
    have hname : s!"{adder}_R" ∈ Under (path a.tag) := by
      simp [adder, Under, path, toString, cut]
    refine (ripple_comes hb le_rfl hready.x hy hready.carryIn hname hfree).imp ?_
    rintro out b' _ ⟨p', hle, -, hout, -, h'⟩
    exact ⟨p', hout.has, h'.of_le hle⟩
  have hpure (out : SignalId) (b' : Builder)
      (h : b.Concludes a.target (Under (path a.tag)) out b') :
      Comes (BuildError.Due a.target excused)
        (fun r b' => b.Concludes a.target (Under (path a.tag)) r.result b')
        ((pure ⟨out, plan⟩ : Build CarrySelect) b') := .pure h
  -- one adder if there is one chunk, or none
  cases plan.phase <;> cases plan.chunks
  all_goals first
    | exact hsingle.bind hpure
    | exact (chunked_comes hb hready hfree).bind hpure

end Addition

/-- A period that is used up is closed, and nothing else happens. -/
lemma closeSpent_comes (hb : b.Orderly t n p) :
    Comes (BuildError.Due t excused) (fun _ b' => ∃ p', p.cycle ≤ p'.cycle ∧ b.Reaches t n p' ∅ b')
      (closeSpent b) := by
  change Comes _ _ ((ite _ _ _ : Build Float) b)
  split
  case isTrue => exact (nextCycle_comes hb).bind fun _ _ h => h
  case isFalse => exact ⟨p, le_rfl, .refl hb⟩

/-- The operands of an addition are there at some point in time from now on. -/
lemma awaitOperands_comes {x y : SignalId} {cin : Option SignalId} {m : ℕ} (hb : b.Orderly t n p)
    (hx : b.Has x m) (hy : b.Has y m) (hcin : ∀ c ∈ cin, b.Has c m) :
    Comes (BuildError.Due t excused)
      (fun _ b' => ∃ p', p.cycle ≤ p'.cycle ∧ b'.Has x p'.cycle ∧ b'.Has y p'.cycle ∧
        (∀ c ∈ cin, b'.Has c p'.cycle) ∧ b.Reaches t n p' ∅ b')
      (awaitOperands x y cin b) := by
  refine (syncTo_comes hb hx).bind ?_
  rintro _ b₁ ⟨p₁, hle₁, -, hx, h₁⟩
  refine (syncTo_comes h₁.orderly (hy.mono h₁.later)).bind ?_
  rintro _ b₂ ⟨p₂, hle₂, -, hy, h₂⟩
  have hx := (hx.mono h₂.later).of_le hle₂
  have hboth := h₁.trans h₂
  cases cin with
  | none =>
    refine (closeSpent_comes hboth.orderly).imp ?_
    rintro _ b₃ _ ⟨p₃, hle₃, h₃⟩
    exact ⟨p₃, hle₁.trans (hle₂.trans hle₃), (hx.mono h₃.later).of_le hle₃,
      (hy.mono h₃.later).of_le hle₃, by simp, hboth.trans h₃⟩
  | some c =>
    have hc := (hcin c rfl).mono hboth.later
    refine (syncTo_comes hboth.orderly hc).bind ?_
    rintro _ b₃ ⟨p₃, hle₃, -, hc, h₃⟩
    refine (closeSpent_comes h₃.orderly).imp ?_
    rintro _ b₄ _ ⟨p₄, hle₄, h₄⟩
    have hle := hle₃.trans hle₄
    have hlater := h₃.later.trans h₄.later
    refine ⟨p₄, hle₁.trans (hle₂.trans hle), (hx.mono hlater).of_le hle,
      (hy.mono hlater).of_le hle, ?_, hboth.trans (h₃.trans h₄)⟩
    rintro _ ⟨⟩
    exact (hc.mono h₄.later).of_le hle₄

/-- An addition makes its sum behind all its uses. -/
lemma carrySelect_comes {x y : SignalId} {cin : Option SignalId} {m : ℕ} (hb : b.Orderly t n p)
    (hn : n ≤ p.cycle) (hx : b.Has x m) (hy : b.Has y m) (hcin : ∀ c ∈ cin, b.Has c m)
    (hwide : ExcusesWide excused width) (hfree : b.Free (Below [] (Worded ["csa"]))) :
    Comes (BuildError.Due t excused)
      (fun r b' => b.Concludes t (Below [] (Worded ["csa"])) r.result b')
      (carrySelect t x y cin width b) := by
  refine (awaitOperands_comes hb hx hy hcin).bind ?_
  rintro budget b₁ ⟨p₁, hle₁, hx, hy, hcin, h₁⟩
  refine ofExcept_bind (fun e he => ChunkPlan.due_of_make hwide he) fun plan _ => ?_
  refine (uniqueId_comes h₁.orderly).bind ?_
  rintro k b₂ ⟨-, -, h₂'⟩
  have h₂ := (h₁.trans h₂').of_le (hn.trans hle₁)
  have hunder : Under (path s!"csa{k}") ⊆ Below [] (Worded ["csa"]) := by
    have hpath : path s!"csa{k}" = [] ++ ["csa".toList ++ digits k] := by simp [path, toString, cut]
    exact under_subset_below hpath (by simp [Worded])
  have hfree₂ : b₂.Free (Under (path s!"csa{k}")) :=
    h₂.free (hfree.mono hunder) (Set.disjoint_empty _)
  have hready (carryIn : CarryIn) (hcarry : carryIn.There b₂ p₁.cycle) :
      Addition.Ready ⟨t, s!"csa{k}", x, y, carryIn⟩ b₂ p₁.cycle :=
    ⟨hx.mono h₂'.later, hy.mono h₂'.later, hcarry⟩
  cases cin with
  | none =>
    exact (Addition.planned_comes h₂.orderly (hready _ (CarryIn.there_constant false)) hfree₂).imp
      fun r b₃ _ h₃ => h₂.quiet.concludes (h₃.mono hunder)
  | some c =>
    have hc := CarryIn.there_signal ((hcin c rfl).mono h₂'.later)
    exact (Addition.planned_comes h₂.orderly (hready _ hc) hfree₂).imp
      fun r b₃ _ h₃ => h₂.quiet.concludes (h₃.mono hunder)

end Datapath
