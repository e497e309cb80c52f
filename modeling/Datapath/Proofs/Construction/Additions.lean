/-
Additions and compressions as runs of steps.

* `ChunkPlan.Strained`: a plan by which sums are selected behind the addition of
  the carries.
* `Addition.chunked_run`: the chunks of an addition; `carrySelect_run`: the whole
  addition. For operands that are there at the start of a cycle, adders start
  late only by a strained plan.
* `reduceAll_run`, `BitHeap.compress_run`: the compression of a heap, whose last
  addition is like any other.
-/
import Datapath.Proofs.Construction.Elements

namespace Datapath

open Build
open Builder (Run)

/-- The sums of a plan are selected in the cycle of its carries, behind the
addition that resolves them. -/
def ChunkPlan.Strained (p : ChunkPlan) : Prop := p.phase = .variable ∧ 2 < p.chunks.length

/-- By a plan that is not strained the sums are selected in a cycle of their
own, or there are no carries to add. -/
lemma ChunkPlan.degenerate_or_short {p : ChunkPlan} {first : Chunk} {others : List Chunk}
    (h : ¬ p.Strained) (hphase : p.phase ≠ .single) (hchunks : p.chunks = first :: others) :
    p.degenerate = true ∨ others.length ≤ 1 := by
  rw [Strained, hchunks, List.length_cons] at h
  rw [degenerate, beq_iff_eq]
  by_cases huniform : p.phase = .uniform
  · exact .inl huniform
  · have hvariable : p.phase = .variable := by
      cases hp : p.phase <;> simp_all
    have hfew : ¬ 2 < others.length + 1 := fun hmany => h ⟨hvariable, hmany⟩
    omega

variable {late : String → Prop} {t : Target} {tag : String} {width : ℕ}

/-! ### Additions -/

namespace Addition

variable {a : Addition} {start latest : Instant} {first : ChunkSums} {raw : Option SignalId}

lemma chunkSums_run {j : ℕ} {c : Chunk} {last : Bool} (hstart : start.TakesAdder late) :
    Leads (Run late) (a.chunkSums start latest j c last) := by
  refine RunFrom.moveTo hstart (RunFrom.read fun _ => .read fun _ => .declare fun _ =>
    .declare fun _ => .ite ?_ ?_)
  · exact ripple_run.bind fun _ => now_run.bind fun _ => .pure _
  · refine ripple_run.bind fun _ => now_run.bind fun _ => .ite (.pure _) ?_
    exact RunFrom.moveTo hstart (ripple_run.bind fun _ => now_run.bind fun _ => .pure _)

lemma sums_run {j : ℕ} {cs : List Chunk} (hstart : start.TakesAdder late) :
    Leads (Run late) (a.sums start j cs latest) := by
  induction cs generalizing j latest with
  | nil => exact .pure _
  | cons c cs ih => exact (chunkSums_run hstart).bind fun _ => ih.bind fun _ => .pure _

/-- There are sums for each chunk. -/
lemma length_sums {j : ℕ} {cs : List Chunk} {b b' : Builder} {r : List ChunkSums × Instant}
    (h : a.sums start j cs latest b = .ok r b') : r.1.length = cs.length := by
  induction cs generalizing j latest b b' r with
  | nil =>
    obtain ⟨rfl, -⟩ := pure_eq_ok.mp h
    rfl
  | cons c cs ih =>
    obtain ⟨⟨sum, latest'⟩, b₁, -, h⟩ := bind_eq_ok.mp h
    obtain ⟨⟨rest, latest''⟩, b₂, hrest, h⟩ := bind_eq_ok.mp h
    obtain ⟨rfl, -⟩ := pure_eq_ok.mp h
    exact congrArg (· + 1) (ih hrest)

lemma readSums_run (sums : List ChunkSums) : Leads (Run late) (readSums sums) := by
  induction sums with
  | nil => exact .pure _
  | cons s rest ih =>
    refine (read_run _).bind fun _ => ?_
    cases s.raised with
    | none => exact ih
    | some raised => exact (read_run _).bind fun _ => ih

/-- With registers nothing is spent of the cycle that carries are added in. -/
lemma rawCarries_run {middle : List ChunkSums} {b b' : Builder}
    (hclock : (∀ w, late (rippleName w)) ∨ b.schedule.pipelined = true)
    (h : a.rawCarries first middle b = .ok raw b') : Run late b b' := by
  rw [rawCarries] at h
  split at h
  case isTrue => exact nextCycle_run.bind (fun _ => .pure _) h
  case isFalse =>
    obtain ⟨_, b₁, hsums, h⟩ := bind_eq_ok.mp h
    obtain ⟨zeros, b₂, hzeros, h⟩ := bind_eq_ok.mp h
    obtain ⟨ones, b₃, hones, h⟩ := bind_eq_ok.mp h
    obtain ⟨_, b₄, hnext, h⟩ := bind_eq_ok.mp h
    have hbefore : Run late b b₃ :=
      .tail (.tail (readSums_run _ hsums) (.declare hzeros)) (.declare hones)
    have htakes : b₄.schedule.now.TakesAdder late :=
      hclock.imp_right fun hpipelined =>
        nextCycle_unspent (hbefore.sameClock.pipelined.trans hpipelined) hnext
    refine (hbefore.tail (.nextCycle hnext)).trans (RunFrom.read (fun _ => .declare fun _ => ?_)
      htakes h)
    exact ripple_run.bind fun _ => .pure _

lemma selectChunk_run {i : ℕ} {c : Chunk} {s : ChunkSums} (hstart : start.TakesAdder late) :
    Leads (Run late) (a.selectChunk start first raw i c s) := by
  refine RunFrom.moveTo hstart ?_
  cases raw with
  | none => exact RunFrom.read fun _ => .declare fun _ => ripple_run
  | some raw => exact RunFrom.read fun _ => .declare fun _ => ripple_run

lemma select_run {i : ℕ} {rest : List (Chunk × ChunkSums)} (hstart : start.TakesAdder late) :
    Leads (Run late) (a.select start first raw i rest latest) := by
  induction rest generalizing i latest with
  | nil => exact .pure _
  | cons head rest ih =>
    exact (selectChunk_run hstart).bind fun _ => now_run.bind fun _ => ih.bind fun _ => .pure _

lemma readAll_run (ids : List SignalId) : Leads (Run late) (readAll ids) := by
  induction ids with
  | nil => exact .pure _
  | cons id rest ih => exact (read_run _).bind fun _ => ih

/-- The selection of the sums is a run of steps from where adders may be
placed. -/
lemma selection_run {low : Chunk} {others : List Chunk} {sums : List ChunkSums} {width : ℕ} :
    RunFrom late (Instant.TakesAdder late) (do
      let start ← now
      let _ ← Build.read first.plain
      let low ← Build.declare s!"{a.tag}_res0" low.size
      let (high, ready) ← a.select start first raw 1 (others.zip sums) start
      Build.moveTo ready
      readAll (low :: high)
      Build.declare s!"{a.tag}_R" width) := by
  intro b out b' htakes h
  obtain ⟨_, b₁, hnow, h⟩ := bind_eq_ok.mp h
  cases hnow
  exact Leads.bind (read_run _) (fun _ => (declare_run _ _).bind fun _ =>
    (select_run htakes).bind fun _ => (moveTo_run _).bind fun _ => (readAll_run _).bind fun _ =>
      declare_run _ _) h

/-- The chunks of an addition are a run of steps, if adders may start late, or
with registers from where nothing is spent of the cycle, if the sums do not
wait for carries in the cycle that they are selected in. -/
lemma chunked_run {p : ChunkPlan} {low : Chunk} {others : List Chunk} {b b' : Builder}
    {out : SignalId}
    (hplace : (∀ w, late (rippleName w)) ∨ b.schedule.pipelined = true ∧
      b.schedule.now.Unspent ∧ (p.degenerate = true ∨ others.length ≤ 1))
    (h : a.chunked p low others b = .ok out b') : Run late b b' := by
  obtain ⟨start, b₀, hnow, h⟩ := bind_eq_ok.mp h
  cases hnow
  obtain ⟨⟨firstSums, ready₁⟩, b₁, hfirst, h⟩ := bind_eq_ok.mp h
  obtain ⟨⟨otherSums, ready₂⟩, b₂, hothers, h⟩ := bind_eq_ok.mp h
  obtain ⟨_, b₃, hready, h⟩ := bind_eq_ok.mp h
  obtain ⟨raw, b₄, hraw, h⟩ := bind_eq_ok.mp h
  have hstart : b.schedule.now.TakesAdder late := hplace.imp_right (·.2.1)
  have hsums : Run late b b₃ :=
    (chunkSums_run hstart hfirst).trans ((sums_run hstart hothers).tail (.moveTo hready))
  have hclock : (∀ w, late (rippleName w)) ∨ b₃.schedule.pipelined = true :=
    hplace.imp_right fun hquick => hsums.sameClock.pipelined.trans hquick.1
  have hcarries : Run late b b₄ := hsums.trans (rawCarries_run hclock hraw)
  by_cases hdegenerate : p.degenerate = true
  · rw [if_pos hdegenerate] at h
    obtain ⟨_, b₅, hnext, h⟩ := bind_eq_ok.mp h
    obtain ⟨_, b₆, hdiagnose, h⟩ := bind_eq_ok.mp h
    have htakes : b₅.schedule.now.TakesAdder late := hplace.imp_right fun hquick =>
      nextCycle_unspent (hcarries.sameClock.pipelined.trans hquick.1) hnext
    have hstage : Run late b b₆ := (hcarries.tail (.nextCycle hnext)).tail (.diagnose hdiagnose)
    refine hstage.trans (selection_run ?_ h)
    obtain rfl := modify_eq_ok.mp hdiagnose
    exact htakes
  · rw [if_neg hdegenerate] at h
    refine hcarries.trans (selection_run ?_ h)
    refine hplace.imp_right fun hquick => ?_
    -- with two chunks there are no carries to add
    have hlength : otherSums.length ≤ 1 := by
      rw [length_sums hothers]
      exact hquick.2.2.resolve_left hdegenerate
    have hnone : otherSums.dropLast.isEmpty = true := by
      rw [List.isEmpty_iff_length_eq_zero, List.length_dropLast]
      omega
    rw [rawCarries, if_pos hnone] at hraw
    obtain ⟨_, b₅, hnext, hraw⟩ := bind_eq_ok.mp hraw
    obtain ⟨-, rfl⟩ := pure_eq_ok.mp hraw
    exact nextCycle_unspent (hsums.sameClock.pipelined.trans hquick.1) hnext

end Addition

/-- What is left of the period once the operands of an addition are there. A
period that is used up is closed first. -/
def closeSpent : Build Float := do
  let s := (← get).schedule
  if s.pipelined ∧ s.criticalPath.seconds ≥ s.period then nextCycle
  let s := (← get).schedule
  return if s.pipelined then s.period - s.criticalPath.seconds else s.period

lemma closeSpent_run : Leads (Run late) closeSpent :=
  Leads.get.bind fun _ => .ite (nextCycle_run.bind fun _ => Leads.get.bind fun _ => .pure _)
    (Leads.get.bind fun _ => .pure _)

/-- A new cycle is started, or everything stays as it is. -/
lemma closeSpent_unspent {b b' : Builder} {budget : Float} (hunspent : b.schedule.now.Unspent)
    (h : closeSpent b = .ok budget b') : b'.schedule.now.Unspent := by
  obtain ⟨_, _, hget, h⟩ := bind_eq_ok.mp h
  obtain ⟨rfl, rfl⟩ := get_eq_ok.mp hget
  split_ifs at h with hlate
  · obtain ⟨_, b₁, hnext, h⟩ := bind_eq_ok.mp h
    obtain ⟨_, _, hget, h⟩ := bind_eq_ok.mp h
    obtain ⟨rfl, rfl⟩ := get_eq_ok.mp hget
    obtain ⟨-, rfl⟩ := pure_eq_ok.mp h
    exact nextCycle_unspent hlate.1 hnext
  · obtain ⟨_, _, hget, h⟩ := bind_eq_ok.mp h
    obtain ⟨rfl, rfl⟩ := get_eq_ok.mp hget
    obtain ⟨-, rfl⟩ := pure_eq_ok.mp h
    exact hunspent

lemma awaitOperands_run {x y : SignalId} {cin : Option SignalId} :
    Leads (Run late) (awaitOperands x y cin) := by
  refine (syncTo_run _).bind fun _ => (syncTo_run _).bind fun _ => ?_
  cases cin with
  | none => exact closeSpent_run
  | some c => exact (syncTo_run _).bind fun _ => closeSpent_run

/-- On a target with registers nothing is spent of the current cycle, and the
operands of an addition are there at the start of a cycle. -/
structure OperandsPrompt (b : Builder) (x y : SignalId) (cin : Option SignalId) : Prop where
  pipelined : b.schedule.pipelined = true
  now : b.schedule.now.Unspent
  first : b.Prompt x
  second : b.Prompt y
  carry : ∀ c ∈ cin, b.Prompt c

/-- Once such operands are there, still nothing is spent of the cycle. -/
lemma awaitOperands_unspent {x y : SignalId} {cin : Option SignalId} {b b' : Builder}
    {budget : Float} (hprompt : OperandsPrompt b x y cin)
    (h : awaitOperands x y cin b = .ok budget b') : b'.schedule.now.Unspent := by
  obtain ⟨_, b₁, hfirst, h⟩ := bind_eq_ok.mp h
  obtain ⟨_, b₂, hsecond, h⟩ := bind_eq_ok.mp h
  have hle₁ : b ≤ b₁ := syncTo_rising _ hfirst
  have hle₂ : b ≤ b₂ := hle₁.trans (syncTo_rising _ hsecond)
  have hunspent : b₂.schedule.now.Unspent :=
    syncTo_unspent (hprompt.second.mono hle₁) (syncTo_unspent hprompt.first hprompt.now hfirst)
      hsecond
  cases cin with
  | none => exact closeSpent_unspent hunspent h
  | some c =>
    obtain ⟨_, b₃, hcarry, h⟩ := bind_eq_ok.mp h
    have hthere : b₂.Prompt c := (hprompt.carry c rfl).mono hle₂
    exact closeSpent_unspent (syncTo_unspent hthere hunspent hcarry) h

/-- An addition is a run of steps, if adders may start late, or by a plan that
is not strained for operands that are there at the start of a cycle. -/
lemma carrySelect_run {x y : SignalId} {cin : Option SignalId} {b b' : Builder} {r : CarrySelect}
    (hplace : (∀ w, late (rippleName w)) ∨ OperandsPrompt b x y cin ∧ ¬ r.plan.Strained)
    (h : carrySelect t x y cin width b = .ok r b') : Run late b b' := by
  obtain ⟨budget, b₁, hawait, hrest⟩ := bind_eq_ok.mp h
  obtain ⟨plan, b₂, hplan, hrest⟩ := bind_eq_ok.mp hrest
  obtain ⟨n, b₃, hid, hadd⟩ := bind_eq_ok.mp hrest
  have hbefore : Run late b b₃ :=
    (awaitOperands_run hawait).trans ((ofExcept_run _ hplan).tail (.uniqueId hid))
  have hsame : b₃.schedule.now = b₁.schedule.now := by
    rw [(ofExcept_eq_ok.mp hplan).2]
    cases hid
    rfl
  have hquick : (∀ w, late (rippleName w)) ∨ b₃.schedule.pipelined = true ∧
      b₃.schedule.now.Unspent ∧ ¬ r.plan.Strained := by
    refine hplace.imp_right fun ⟨hprompt, hrelaxed⟩ => ⟨?_, ?_, hrelaxed⟩
    · exact hbefore.sameClock.pipelined.trans hprompt.pipelined
    · rw [hsame]
      exact awaitOperands_unspent hprompt hawait
  have htakes : b₃.schedule.now.TakesAdder late := hquick.imp_right (·.2.1)
  refine hbefore.trans ?_
  cases hphase : plan.phase <;> cases hchunks : plan.chunks
  all_goals
    rw [hphase, hchunks] at hadd
    obtain ⟨out, b₄, hout, hpure⟩ := bind_eq_ok.mp hadd
    obtain ⟨rfl, rfl⟩ := pure_eq_ok.mp hpure
    first
      | exact Addition.ripple_run htakes hout
      | refine Addition.chunked_run (hquick.imp_right ?_) hout
        rintro ⟨hpipelined, hunspent, hrelaxed⟩
        exact ⟨hpipelined, hunspent,
          ChunkPlan.degenerate_or_short hrelaxed (by simp [hphase]) hchunks⟩

/-! ### Compressions -/

namespace Round

variable {r : Round} {w : ℕ}

lemma fullAdders_run {k : ℕ} {bits : List HeapBit} : Leads (Run late) (r.fullAdders w k bits) := by
  induction k, bits using fullAdders.induct with
  | case1 k a b c rest ih => exact compressor_run.bind fun _ => ih.bind fun _ => .pure _
  | case2 k left hshort =>
    rw [fullAdders]
    · exact .pure _
    · exact hshort

lemma reduceColumn_run {carries column : List HeapBit} :
    Leads (Run late) (r.reduceColumn w carries column) :=
  fullAdders_run.bind fun _ => .ite (compressor_run.bind fun _ => .pure _) (.pure _)

lemma reduceColumns_run {carries : List HeapBit} {columns : List (List HeapBit)} :
    Leads (Run late) (r.reduceColumns w carries columns) := by
  induction columns generalizing w carries with
  | nil => exact .pure _
  | cons column columns ih => exact reduceColumn_run.bind fun _ => ih.bind fun _ => .pure _

end Round

/-- Rounds of a compression are a run of steps. -/
lemma reduceAll_run {fuel done : ℕ} {columns : List (List HeapBit)} :
    Leads (Run late) (reduceAll t tag fuel done columns) := by
  induction fuel generalizing done columns with
  | zero => exact .pure _
  | succ fuel ih =>
    exact .ite (Round.reduceColumns_run.bind fun _ => ih.bind fun _ => .pure _) (.pure _)

lemma declareRows_run {r count : ℕ} {columns : List (List HeapBit)} :
    Leads (Run late) (declareRows tag width r columns count) := by
  induction count generalizing r with
  | zero => exact .pure _
  | succ count ih => exact (declare_run _ _).bind fun _ => ih.bind fun _ => .pure _

lemma layRows_run {columns : List (List HeapBit)} :
    Leads (Run late) (layRows tag width columns) := by
  rw [layRows]
  cases HeapBit.latest columns.flatten with
  | none => exact (readSources_run _).bind fun _ => declareRows_run
  | some bit =>
    exact (moveTo_run _).bind fun _ => (readSources_run _).bind fun _ => declareRows_run

lemma sumRows_run {rows : List HeapRow} (hlate : ∀ w, late (rippleName w)) :
    Leads (Run late) (sumRows t width rows) := by
  match rows with
  | [] => exact .pure _
  | [a] => exact .pure _
  | [a, b] => exact Leads.bind (fun _ _ _ h => carrySelect_run (.inl hlate) h) fun _ => .pure _
  | a :: b :: c :: rest => exact .pure _

/-- The compression of a heap is a run of steps, if adders may start late. -/
lemma BitHeap.compress_run {h : BitHeap} (hlate : ∀ w, late (rippleName w)) :
    Leads (Run late) (h.compress t) :=
  uniqueId_run.bind fun _ => reduceAll_run.bind fun _ => layRows_run.bind fun _ =>
    (sumRows_run hlate).bind fun _ => .pure _

end Datapath
