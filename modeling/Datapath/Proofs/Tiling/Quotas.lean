/-
When a search says that its budget is spent.

* `Search.quota`: what falls to a number of blocks when a limit on the
  evaluations is shared out; `Search.UsesUp`: as much was evaluated.
* `Search.usesUp_append`: later arrangements have fewer blocks, so what a number
  of blocks used up stays as it was.
* `Search.Tells`: until now, the budget was reported as spent exactly if some
  number of blocks used up its share; `Search.Tells.step` for one step,
  `Search.tells_after` for some.
* `exhausted_of_search`: so the result reports it whenever an arrangement is
  missing, and also when a share was just enough.
* `exhausted_with_nothing_missing`: in that case, no arrangement need be missing.
-/
import Datapath.Proofs.Tiling.Shares

namespace Datapath.Tiling

variable {p : Problem} {b : Budget} {s : Search} {state : SearchState} {seen : List (List ℕ)}
  {cap count k : ℕ} {config : List ℕ}

namespace Search

/-! ### Shares of a limit -/

/-- The share of a limit on the evaluations that falls to `count` blocks: what
the arrangements of more blocks left of it, shared out evenly over this number
of blocks and all the smaller ones. -/
def quota (cap : ℕ) (seen : List (List ℕ)) (count : ℕ) : ℕ :=
  (cap - seen.countP (count < ·.length)) / (count + 1)

/-- As many arrangements of `count` blocks were evaluated as their share
allows. -/
def UsesUp (cap : ℕ) (seen : List (List ℕ)) (count : ℕ) : Prop :=
  quota cap seen count ≤ seen.countP (·.length = count)

/-- An arrangement of fewer than `k` blocks does not change what `k` blocks used
up. -/
lemma usesUp_append (hless : config.length < k) :
    UsesUp cap (seen ++ [config]) k ↔ UsesUp cap seen k := by
  simp [UsesUp, quota, List.countP_append, hless.ne, hless.not_gt]

/-- If no arrangement of fewer blocks was seen, those of this number are the
rest. -/
lemma length_eq_countP (h : ∀ c ∈ seen, count ≤ c.length) :
    seen.length = seen.countP (count < ·.length) + seen.countP (·.length = count) := by
  rw [List.length_eq_countP_add_countP (count < ·.length)]
  congr 1
  refine List.countP_congr ?_
  intro c hc
  have hle := h c hc
  simp only [decide_eq_true_eq]
  omega

/-! ### What a search reports -/

/-- The numbers of blocks from `lo` on used up a share if and only if the search
says that it passed over arrangements. -/
def Told (p : Problem) (cap lo : ℕ) (seen : List (List ℕ)) (s : Search) : Prop :=
  s.truncated = true ↔ ∃ k, lo ≤ k ∧ k ≤ p.greedy.length ∧ UsesUp cap seen k

/-- It is the turn of a number of blocks, with its share of the limit. -/
structure InTurn (p : Problem) (cap : ℕ) (seen : List (List ℕ)) (s : Search) : Prop where
  lasts : s.exhausted = false
  larger : ∀ c ∈ seen, s.count ≤ c.length
  share : s.share = some (seen.countP (s.count < ·.length) + quota cap seen s.count)
  told : Told p cap (s.count + 1) seen s

/-- So far, the search says that its budget is spent if and only if some number
of blocks used up its share. -/
def Tells (p : Problem) (cap : ℕ) (seen : List (List ℕ)) (s : Search) : SearchState → Prop
  | .init => seen = [] ∧ s.exhausted = false ∧ s.truncated = false
  | .done => (s.exhausted || s.truncated) = true ↔
      ∃ k ≤ p.greedy.length, UsesUp cap seen k
  | _ => InTurn p cap seen s

/-- A number of blocks gets its share when all arrangements until then had
more. -/
lemma InTurn.startLevel (hcap : s.budget.evaluations = some cap)
    (hcounted : s.evaluations = seen.length) (hlasts : s.exhausted = false)
    (hlarger : ∀ c ∈ seen, count < c.length) (htold : Told p cap (count + 1) seen s) :
    InTurn p cap seen (s.startLevel count) := by
  have hall : seen.countP (count < ·.length) = seen.length := by
    refine List.countP_eq_length.mpr ?_
    intro c hc
    exact decide_eq_true (hlarger c hc)
  refine ⟨hlasts, fun c hc => (hlarger c hc).le, ?_, htold⟩
  change s.budget.evaluations.map _ =
    some (seen.countP (count < ·.length) + quota cap seen count)
  rw [hcap, Option.map_some, quota, hall, hcounted]

/-- On the way down, the next lower number of blocks has its turn. -/
lemma Tells.descend (hproblem : s.problem = p) (hcap : s.budget.evaluations = some cap)
    (hcounted : s.evaluations = seen.length) (hlasts : s.exhausted = false)
    (hcount : count ≤ p.greedy.length + 1) (hlarger : ∀ c ∈ seen, count ≤ c.length)
    (htold : Told p cap count seen s) :
    Tells p cap seen (Search.descend count s).2 (Search.descend count s).1 := by
  cases count with
  | zero =>
    change (s.exhausted || s.truncated) = true ↔ _
    rw [hlasts, Bool.false_or]
    refine htold.trans ?_
    simp only [Nat.zero_le, true_and]
  | succ count =>
    obtain ⟨first, hfirst⟩ := Problem.exists_complete? (Nat.le_of_succ_le_succ hcount)
    rw [Search.descend, show (s.startLevel count).problem = p from hproblem, hfirst]
    exact .startLevel hcap hcounted hlasts hlarger htold

/-- A search that spent its whole limit used up the share of its number of
blocks. -/
lemma InTurn.usesUp_of_spent (h : InTurn p cap seen s) (hcounted : s.evaluations = seen.length)
    (hspent : cap ≤ s.evaluations) : UsesUp cap seen s.count := by
  have hlength := length_eq_countP h.larger
  refine (Nat.div_le_self _ _).trans ?_
  omega

/-- The share of a number of blocks is spent if and only if it is used up. -/
lemma InTurn.shareSpent_iff (h : InTurn p cap seen s) (hclock : s.clock = .still)
    (hcounted : s.evaluations = seen.length) : s.shareSpent = true ↔ UsesUp cap seen s.count := by
  have hlength := length_eq_countP h.larger
  rw [shareSpent, hclock, Clock.still, Bool.false_or, h.share, Option.any_some,
    decide_eq_true_eq, UsesUp]
  omega

lemma InTurn.look (h : InTurn p cap seen s) : InTurn p cap seen { s with looks := s.looks + 1 } :=
  ⟨h.lasts, h.larger, h.share, h.told⟩

/-- Where a number of blocks used up its share, the search that ends there says
that its budget is spent. -/
lemma Tells.of_spent (hcount : s.count ≤ p.greedy.length) (hused : UsesUp cap seen s.count)
    (hspent : s.exhausted = true) : Tells p cap seen s .done := by
  refine ⟨fun _ => ⟨s.count, hcount, hused⟩, fun _ => ?_⟩
  rw [hspent, Bool.true_or]

/-- Some number of blocks from `count` on used up its share: this one or a larger
one. -/
lemma exists_usesUp_iff (cap : ℕ) (seen : List (List ℕ)) (hcount : count ≤ p.greedy.length) :
    (∃ k, count ≤ k ∧ k ≤ p.greedy.length ∧ UsesUp cap seen k) ↔
      UsesUp cap seen count ∨ ∃ k, count + 1 ≤ k ∧ k ≤ p.greedy.length ∧ UsesUp cap seen k := by
  constructor
  · rintro ⟨k, hlo, hk, hused⟩
    rcases Nat.eq_or_lt_of_le hlo with rfl | hless
    · exact .inl hused
    · exact .inr ⟨k, hless, hk, hused⟩
  · rintro (hused | ⟨k, hlo, hk, hused⟩)
    · exact ⟨count, le_rfl, hcount, hused⟩
    · exact ⟨k, Nat.le_of_succ_le hlo, hk, hused⟩

/-- An arrangement of the current number of blocks has at most as many as the
greedy one. -/
lemma Trail.count_le (h : Trail p seen state s) (hmem : config ∈ seen ++ state.rest p s.count)
    (hlength : config.length = s.count) : s.count ≤ p.greedy.length :=
  hlength ▸ Nat.le_of_lt_succ (Problem.mem_fewer.mp (h.order.subset hmem)).1

/-- Where the whole limit is spent, the search ends and says so. -/
lemma InTurn.spend (h : InTurn p cap seen s) (hcounted : s.evaluations = seen.length)
    (hcap : s.budget.evaluations = some cap) (hcount : s.count ≤ p.greedy.length)
    (hspent : cap ≤ s.evaluations) :
    s.checkBudget.exhausted = true ∧ Tells p cap seen s.checkBudget .done := by
  have hexhausted : s.checkBudget.exhausted = true := by
    simp [checkBudget, spent, hcap, hspent]
  exact ⟨hexhausted, .of_spent hcount (h.usesUp_of_spent hcounted hspent) hexhausted⟩

/-- An evaluation is one of the current number of blocks. -/
lemma InTurn.evaluate (h : InTurn p cap seen s) (hlength : config.length = s.count) :
    InTurn p cap (seen ++ [config]) (s.evaluate config).2 := by
  have habove : (seen ++ [config]).countP (s.count < ·.length) =
      seen.countP (s.count < ·.length) := by
    simp [List.countP_append, hlength]
  refine ⟨h.lasts, ?_, ?_, ?_⟩
  · intro c hc
    rcases List.mem_append.mp hc with hc | hc
    · exact h.larger c hc
    · exact (List.mem_singleton.mp hc ▸ hlength).ge
  · change s.share = some
      ((seen ++ [config]).countP (s.count < ·.length) + quota cap (seen ++ [config]) s.count)
    rw [h.share, quota, quota, habove]
  · refine h.told.trans ?_
    refine exists_congr fun k => and_congr_right fun hk => and_congr_right fun _ => ?_
    exact (usesUp_append (by omega)).symm

/-- On the way down, nothing is evaluated. -/
lemma compared_descend (s : Search) (count : ℕ) : (Search.descend count s).1.compared = [] := by
  rcases (descend_eq s count).2 with hdone | ⟨config, hconfig⟩
  · rw [hdone]
    rfl
  · rw [hconfig]
    rfl

/-- After a probe, the search is still in the turn of this number of blocks, or
it has told whether that used up its share. -/
lemma Tells.probe (htrail : Trail p seen (.probe config) s) (htime : s.Unhurried)
    (hcap : s.budget.evaluations = some cap) (h : InTurn p cap seen s) :
    Tells p cap (seen ++ (s.step (.probe config)).1.compared) (s.step (.probe config)).2
      (s.step (.probe config)).1 := by
  have hcounted := htrail.counted
  have hcount := htrail.count_le (List.mem_append_left _ htrail.recalls) htrail.arrangement
  by_cases hless : s.evaluations < cap
  · rw [Search.step, checkBudget_eq htime hcap hless,
      if_neg (ne_of_eq_of_ne h.lasts Bool.false_ne_true)]
    have hused := h.look.shareSpent_iff htime.clock hcounted
    have htold := exists_usesUp_iff cap seen hcount
    split_ifs with hspent
    · rw [compared_descend, List.append_nil]
      refine .descend htrail.problem hcap hcounted h.lasts (Nat.le_succ_of_le hcount) h.larger ?_
      exact ⟨fun _ => htold.mpr (.inl (hused.mp hspent)), fun _ => rfl⟩
    · split
      · exact (List.append_nil seen).symm ▸ h.look
      · rw [compared_descend, List.append_nil]
        refine .descend htrail.problem hcap hcounted h.lasts (Nat.le_succ_of_le hcount) h.larger ?_
        exact h.told.trans ((or_iff_right fun h => hspent (hused.mpr h)).symm.trans htold.symm)
  · obtain ⟨hexhausted, htells⟩ := h.spend hcounted hcap hcount (Nat.le_of_not_lt hless)
    rw [Search.step, if_pos hexhausted]
    exact (List.append_nil seen).symm ▸ htells

/-- One step keeps what the search tells. -/
lemma Tells.step (htrail : Trail p seen state s) (htime : s.Unhurried)
    (hcap : s.budget.evaluations = some cap) (h : Tells p cap seen s state) :
    Tells p cap (seen ++ (s.step state).1.compared) (s.step state).2 (s.step state).1 := by
  have hcounted := htrail.counted
  cases state with
  | init =>
    obtain ⟨rfl, hlasts, htruncated⟩ := h
    obtain rfl := htrail.problem
    have hnone : ∀ c ∈ ([] : List (List ℕ)), s.problem.greedy.length < c.length := by
      intro c hc
      cases hc
    have htold : Told s.problem cap (s.problem.greedy.length + 1) [] s := by
      refine ⟨fun h => ?_, fun ⟨k, hlo, hk, _⟩ => by omega⟩
      rw [htruncated] at h
      cases h
    exact (InTurn.startLevel hcap hcounted hlasts hnone htold).evaluate rfl
  | evaluate config =>
    have hcount := htrail.count_le (List.mem_append_right _ List.mem_cons_self) htrail.arrangement
    by_cases hless : s.evaluations < cap
    · rw [Search.step, checkBudget_eq htime hcap hless,
        if_neg (ne_of_eq_of_ne h.lasts Bool.false_ne_true)]
      exact h.look.evaluate htrail.arrangement
    · obtain ⟨hexhausted, htells⟩ := h.spend hcounted hcap hcount (Nat.le_of_not_lt hless)
      rw [Search.step, if_pos hexhausted]
      exact (List.append_nil seen).symm ▸ htells
  | compare config candidate =>
    obtain ⟨best, hoffer⟩ := s.offer_eq candidate
    have hturn : InTurn p cap seen { s with best := some best } :=
      ⟨h.lasts, h.larger, h.share, h.told⟩
    rw [Search.step, hoffer]
    exact (List.append_nil seen).symm ▸ hturn
  | probe config => exact .probe htrail htime hcap h
  | done => exact (List.append_nil seen).symm ▸ h

/-- After any number of steps. -/
lemma tells_after (htime : b.time ≠ 0) (hcap : b.evaluations = some cap) (n : ℕ) :
    Tells p cap ((start p b).evaluated n) ((start p b).after n).2 ((start p b).after n).1 := by
  induction n with
  | zero => exact ⟨rfl, rfl, rfl⟩
  | succ n ih =>
    have hbudget : ((start p b).after n).2.budget = b := (sound_after p b .still n).2.budget
    exact ih.step (trail_after p b .still n) (unhurried_after htime n)
      ((congrArg Budget.evaluations hbudget).trans hcap)

/-- The result says that the budget is spent if the search said so at its end. -/
lemma budgetExhausted_exhaustive [Surroundings] (p : Problem) (b : Budget) :
    ((start p b).run .exhaustive).budgetExhausted =
      (((start p b).after (stepLimit p)).2.exhausted ||
        ((start p b).after (stepLimit p)).2.truncated) := by
  change (start p b).exhaust.outcome.budgetExhausted = _
  rw [exhaust_eq, outcome]
  split <;> rfl

/-- If an arrangement is missing, the result says that the budget is spent. -/
lemma budgetExhausted_of_not_mem [Surroundings] (hmem : config ∈ p.fewer (p.greedy.length + 1))
    (hmissing : config ∉ (start p b).evaluated (stepLimit p)) :
    ((start p b).run .exhaustive).budgetExhausted = true := by
  by_contra hlasts
  rw [budgetExhausted_exhaustive, Bool.not_eq_true, Bool.or_eq_false_iff] at hlasts
  exact hmissing (evaluated_of_whole hlasts.1 hlasts.2 ▸ hmem)

/-- The result says that the budget is spent if and only if some number of
blocks used up its share. -/
lemma budgetExhausted_iff [Surroundings] (htime : b.time ≠ 0) :
    ((start p b).run .exhaustive).budgetExhausted = true ↔
      ∃ cap, b.evaluations = some cap ∧ ∃ count ≤ p.greedy.length,
        UsesUp cap ((start p b).evaluated (stepLimit p)) count := by
  cases hcap : b.evaluations with
  | none =>
    have hlasts : ((start p b).run .exhaustive).budgetExhausted = false :=
      lasts_exhaust htime hcap
    simp [hlasts]
  | some cap =>
    have htells := tells_after (p := p) htime hcap (stepLimit p)
    rw [done_after] at htells
    rw [budgetExhausted_exhaustive]
    refine Iff.trans htells ⟨fun h => ⟨cap, rfl, h⟩, ?_⟩
    rintro ⟨_, ⟨⟩, h⟩
    exact h

end Search

variable {grid : Grid} {shape : BlockShape}

/-- **The exhaustive search reports a spent budget if it passed over an
arrangement, and also if a share was just enough.** With time, the search ends
after some steps. If an arrangement with at most as many blocks as the greedy
one was not evaluated until then, the result says that the budget is spent. It
says so if and only if there is a limit on the evaluations and as many
arrangements of some number of blocks were evaluated as their share allows,
whether or not there are more. There is a result if the clock can count the
time. -/
theorem exhausted_of_search [Surroundings] (hgrid : 0 < grid.area) (hshape : 0 < shape.area)
    (ratio : Float) (table : ℕ × ℕ) (htime : b.time ≠ 0) :
    ∃ p, Problem.make grid shape ratio table = .ok p ∧
      (b.time < clockSpan → ((Search.start p b).run .exhaustive).overrun = false) ∧
      ∃ n, ((Search.start p b).after n).1 = .done ∧
        (∀ config, config.length ≤ p.greedy.length → config.Pairwise (· < ·) →
          (∀ i ∈ config, i < p.size) → p.Apart config →
          config ∉ (Search.start p b).evaluated n →
          ((Search.start p b).run .exhaustive).budgetExhausted = true) ∧
        (((Search.start p b).run .exhaustive).budgetExhausted = true ↔
          ∃ cap, b.evaluations = some cap ∧ ∃ count ≤ p.greedy.length,
            Search.UsesUp cap ((Search.start p b).evaluated n) count) := by
  obtain ⟨p, hmake⟩ := Problem.exists_make hgrid hshape ratio table
  have htimely :=
    (Search.run_best (p := p) (Q := fun _ => True) (fun _ _ => trivial) b .still .exhaustive).2
  refine ⟨p, hmake, htimely, Search.stepLimit p, Search.done_after p b .still, ?_,
    Search.budgetExhausted_iff htime⟩
  intro config hlength hascends hknown hapart hmissing
  refine Search.budgetExhausted_of_not_mem (Problem.mem_fewer.mpr ?_) hmissing
  exact ⟨Nat.lt_succ_of_le hlength, ⟨hascends, fun i hi => ⟨i.zero_le, hknown i hi⟩⟩, hapart⟩

/-- A grid with the size of a block. -/
def single : Problem where
  grid := ⟨2, 2⟩
  cost := .weights 1.0 4
  table := (1, 1)
  candidates := (Candidate.enumerate ⟨2, 2⟩ ⟨2, 2⟩).toArray

lemma make_single : Problem.make ⟨2, 2⟩ ⟨2, 2⟩ 1.0 (1, 1) = .ok single := rfl

theorem exhausted_of_search_rotating :
    0 < (Grid.mk 3 4).area ∧ 0 < (BlockShape.mk 2 3).area ∧ anHour.time ≠ 0 ∧
      ((Search.start rotating ⟨anHour.time, some 1⟩).run .exhaustive).budgetExhausted = true := by
  have hgrid : 0 < (Grid.mk 3 4).area := by decide
  have hshape : 0 < (BlockShape.mk 2 3).area := by decide
  have htime : anHour.time ≠ 0 := by decide
  obtain ⟨p, hmake, -, n, -, -, hiff⟩ :=
    exhausted_of_search (b := ⟨anHour.time, some 1⟩) hgrid hshape 1.0 (1, 1) htime
  obtain rfl : rotating = p := Except.ok.inj (make_rotating.symm.trans hmake)
  refine ⟨hgrid, hshape, htime, hiff.mpr ⟨1, rfl, 1, greedy_rotating ▸ le_rfl, ?_⟩⟩
  -- the share of one block is half an evaluation at most
  rw [Search.UsesUp, Search.quota]
  omega

/-- The only arrangements of a block on a grid of its size are the block and
none. The limit is three, the share of the block is one, and nothing is
missing. -/
theorem exhausted_with_nothing_missing :
    ∃ p, Problem.make ⟨2, 2⟩ ⟨2, 2⟩ 1.0 (1, 1) = .ok p ∧
      ((Search.start p ⟨anHour.time, some 3⟩).run .exhaustive).budgetExhausted = true ∧
      ((Search.start p ⟨anHour.time, some 3⟩).run .exhaustive).evaluations = 2 ∧
      ∃ n, ((Search.start p ⟨anHour.time, some 3⟩).after n).1 = .done ∧
        ∀ config, config.length ≤ p.greedy.length → config.Pairwise (· < ·) →
          (∀ i ∈ config, i < p.size) → p.Apart config →
          config ∈ (Search.start p ⟨anHour.time, some 3⟩).evaluated n := by
  have hall : (Search.start single ⟨anHour.time, some 3⟩).evaluated (Search.stepLimit single) =
      single.fewer (single.greedy.length + 1) := by decide +kernel
  refine ⟨single, make_single, by decide +kernel, by decide +kernel, Search.stepLimit single,
    Search.done_after _ _ _, ?_⟩
  intro config hlength hascends hknown hapart
  rw [hall]
  refine Problem.mem_fewer.mpr ⟨Nat.lt_succ_of_le hlength, ⟨hascends, ?_⟩, hapart⟩
  exact fun i hi => ⟨i.zero_le, hknown i hi⟩

end Datapath.Tiling
