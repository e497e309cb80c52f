/-
All arrangements, in the order in which the exhaustive search takes them.

* `arrangements`: the arrangements that extend a given one by some candidates
  from one on, in lexicographic order; `mem_arrangements` says which they are.
* `complete?_eq`, `successor?_eq`: the search looks for the first of the
  arrangements that are left; `later` are those after a given one.
* `later_of_arrangements`, `later_of_later`: the arrangements after the first
  of some are the others.
* `fewer`: all arrangements of fewer candidates than some number, those with
  more candidates first; `length_fewerFrom` bounds their number.
* `arrangements_greedy`: the greedy arrangement is the first one with its number
  of candidates; `exists_mem_arrangements`, `exists_complete?`: there are some
  with every smaller number.
* `Precedes`: the order in which all arrangements come, `fewer_precedes`.
-/
import Datapath.Proofs.Tiling.Arrangement
import Mathlib.Algebra.Order.Ring.Nat

namespace Datapath.Tiling

/-! ### Ascending lists -/

/-- The list ascends from `lo` on and stays below `hi`. -/
def Ascends (l : List ℕ) (lo hi : ℕ) : Prop := l.Pairwise (· < ·) ∧ ∀ i ∈ l, lo ≤ i ∧ i < hi

variable {l : List ℕ} {lo hi i : ℕ}

lemma Ascends.nil (lo hi : ℕ) : Ascends [] lo hi := ⟨.nil, fun _ h => absurd h List.not_mem_nil⟩

lemma Ascends.mono {lo' : ℕ} (h : Ascends l lo hi) (hle : lo' ≤ lo) : Ascends l lo' hi := by
  refine ⟨h.1, ?_⟩
  intro i hi
  have := h.2 i hi
  omega

lemma ascends_cons : Ascends (i :: l) lo hi ↔ (lo ≤ i ∧ i < hi) ∧ Ascends l (i + 1) hi := by
  constructor
  · rintro ⟨hpairs, hall⟩
    obtain ⟨hfirst, hothers⟩ := List.pairwise_cons.mp hpairs
    refine ⟨hall i List.mem_cons_self, hothers, ?_⟩
    intro j hj
    exact ⟨hfirst j hj, (hall j (List.mem_cons_of_mem i hj)).2⟩
  · rintro ⟨hi, hpairs, hall⟩
    refine ⟨List.pairwise_cons.mpr ⟨fun j hj => (hall j hj).1, hpairs⟩, ?_⟩
    intro j hj
    rcases List.mem_cons.mp hj with rfl | hj
    · exact hi
    · have := hall j hj
      omega

/-- A list that ascends begins there or ascends from the next number on. -/
lemma Ascends.begins_or_later (h : Ascends l lo hi) :
    (∃ rest, l = lo :: rest ∧ Ascends rest (lo + 1) hi) ∨ Ascends l (lo + 1) hi := by
  cases l with
  | nil => exact .inr (.nil _ _)
  | cons i rest =>
    obtain ⟨hi, hrest⟩ := ascends_cons.mp h
    rcases Nat.eq_or_lt_of_le hi.1 with rfl | hlater
    · exact .inl ⟨rest, rfl, hrest⟩
    · exact .inr (ascends_cons.mpr ⟨⟨hlater, hi.2⟩, hrest⟩)

namespace Problem

variable {p : Problem} {config c : List ℕ} {start need count : ℕ}

/-! ### Arrangements in order -/

/-- The arrangements that extend `config` by `need` candidates from `start` on,
in lexicographic order. -/
def arrangements (p : Problem) (config : List ℕ) (start need : ℕ) : List (List ℕ) :=
  if need = 0 then [config]
  else if start < p.size then
    if p.fits config start then
      p.arrangements (config ++ [start]) (start + 1) (need - 1) ++
        p.arrangements config (start + 1) need
    else p.arrangements config (start + 1) need
  else []
termination_by p.size - start

lemma arrangements_zero (p : Problem) (config : List ℕ) (start : ℕ) :
    p.arrangements config start 0 = [config] := by
  rw [arrangements, if_pos rfl]

/-- With a candidate that fits, there are the arrangements with it before those
without it. -/
lemma arrangements_take (hstart : start < p.size) (hfits : p.fits config start = true) :
    p.arrangements config start (need + 1) =
      p.arrangements (config ++ [start]) (start + 1) need ++
        p.arrangements config (start + 1) (need + 1) := by
  rw [arrangements, if_neg need.succ_ne_zero, if_pos hstart, if_pos hfits, Nat.add_sub_cancel]

/-- A candidate that does not fit is passed over. -/
lemma arrangements_skip (hstart : start < p.size) (hfits : ¬ p.fits config start = true) :
    p.arrangements config start need = p.arrangements config (start + 1) need := by
  cases need with
  | zero => rw [arrangements_zero, arrangements_zero]
  | succ need => rw [arrangements, if_neg need.succ_ne_zero, if_pos hstart, if_neg hfits]

/-- Past the last candidate, nothing can be added. -/
lemma arrangements_end (hstart : ¬ start < p.size) (hneed : need ≠ 0) :
    p.arrangements config start need = [] := by
  rw [arrangements, if_neg hneed, if_neg hstart]

/-- The search for the first extension finds it. -/
lemma complete?_eq (p : Problem) (config : List ℕ) (start need : ℕ) :
    p.complete? config start need = (p.arrangements config start need).head? := by
  fun_induction arrangements p config start need with
  | case1 config start => rw [complete?, if_pos rfl, List.head?_cons]
  | case2 config start need hneed hstart hfits ihwith ihwithout =>
    rw [complete?, if_neg hneed, if_pos hstart, if_pos hfits, ihwith, ihwithout, List.head?_append]
  | case3 config start need hneed hstart hfits ih =>
    rw [complete?, if_neg hneed, if_pos hstart, if_neg hfits, ih]
  | case4 config start need hneed hstart =>
    rw [complete?, if_neg hneed, if_neg hstart, List.head?_nil]

lemma fits_of_apart (h : p.Apart (config ++ i :: l)) : p.fits config i = true := by
  obtain ⟨-, -, hpairs⟩ := List.pairwise_append.mp h
  refine List.all_eq_true.mpr ?_
  intro j hj
  rw [hpairs j hj i List.mem_cons_self]
  rfl

/-- The arrangements that extend one: those whose other candidates ascend, and
whose blocks are apart. -/
lemma mem_arrangements (h : p.Apart config) :
    c ∈ p.arrangements config start need ↔
      ∃ ext, c = config ++ ext ∧ ext.length = need ∧ Ascends ext start p.size ∧ p.Apart c := by
  fun_induction arrangements p config start need with
  | case1 config start =>
    rw [List.mem_singleton]
    constructor
    · rintro rfl
      exact ⟨[], by simp, rfl, .nil _ _, h⟩
    · rintro ⟨ext, rfl, hlength, -, -⟩
      simp [List.length_eq_zero_iff.mp hlength]
  | case2 config start need hneed hstart hfits ihwith ihwithout =>
    rw [List.mem_append, ihwith (h.append hfits), ihwithout h]
    constructor
    · rintro (⟨ext, rfl, hlength, hascends, hapart⟩ | ⟨ext, rfl, hlength, hascends, hapart⟩)
      · refine ⟨start :: ext, by simp, ?_, ascends_cons.mpr ⟨⟨start.le_refl, hstart⟩, hascends⟩,
          hapart⟩
        rw [List.length_cons, hlength]
        omega
      · exact ⟨ext, rfl, hlength, hascends.mono (by omega), hapart⟩
    · rintro ⟨ext, rfl, hlength, hascends, hapart⟩
      rcases hascends.begins_or_later with ⟨rest, rfl, hrest⟩ | hlater
      · left
        refine ⟨rest, by simp, ?_, hrest, by simpa using hapart⟩
        rw [← hlength, List.length_cons, Nat.add_sub_cancel]
      · right
        exact ⟨ext, rfl, hlength, hlater, hapart⟩
  | case3 config start need hneed hstart hfits ih =>
    rw [ih h]
    constructor
    · rintro ⟨ext, rfl, hlength, hascends, hapart⟩
      exact ⟨ext, rfl, hlength, hascends.mono (by omega), hapart⟩
    · rintro ⟨ext, rfl, hlength, hascends, hapart⟩
      rcases hascends.begins_or_later with ⟨rest, rfl, hrest⟩ | hlater
      · exact absurd (fits_of_apart hapart) hfits
      · exact ⟨ext, rfl, hlength, hlater, hapart⟩
  | case4 config start need hneed hstart =>
    constructor
    · intro hnil
      cases hnil
    · rintro ⟨ext, rfl, hlength, hascends, hapart⟩
      cases ext with
      | nil => exact absurd hlength.symm hneed
      | cons i ext =>
        have := (ascends_cons.mp hascends).1
        omega

/-- An arrangement that extends one has as many more candidates as needed. -/
lemma length_of_mem_arrangements (h : c ∈ p.arrangements config start need) :
    c.length = config.length + need := by
  fun_induction arrangements p config start need with
  | case1 config start => rw [List.mem_singleton.mp h, Nat.add_zero]
  | case2 config start need hneed hstart hfits ihwith ihwithout =>
    rcases List.mem_append.mp h with h | h
    · rw [ihwith h, List.length_append, List.length_singleton]
      omega
    · exact ihwithout h
  | case3 config start need hneed hstart hfits ih => exact ih h
  | case4 => cases h

/-! ### Later arrangements -/

/-- The arrangements of `count` candidates after all those that begin with
`rest.reverse` and then a candidate before `start`. -/
def laterFrom (p : Problem) (count : ℕ) : List ℕ → ℕ → List (List ℕ)
  | [], start => if 0 < count then p.arrangements [] start count else []
  | last :: rest, start =>
    (if (last :: rest).length < count then
      p.arrangements (last :: rest).reverse start (count - (last :: rest).length) else []) ++
        p.laterFrom count rest (last + 1)

/-- The arrangements of `count` candidates after all those that begin with a
given one. -/
def later (p : Problem) (count : ℕ) (config : List ℕ) : List (List ℕ) :=
  match config.reverse with
  | [] => []
  | last :: rest => p.laterFrom count rest (last + 1)

lemma later_append (p : Problem) (count : ℕ) (config : List ℕ) (last : ℕ) :
    p.later count (config ++ [last]) = p.laterFrom count config.reverse (last + 1) := by
  simp [later]

lemma resume?_eq (p : Problem) (count : ℕ) (rest : List ℕ) (start : ℕ) :
    p.resume? count rest start = (p.laterFrom count rest start).head? := by
  induction rest generalizing start with
  | nil =>
    rw [resume?, laterFrom]
    split_ifs
    · exact complete?_eq p [] start count
    · rfl
  | cons last rest ih =>
    rw [resume?, laterFrom, List.head?_append, ih]
    simp only [List.length_reverse]
    split_ifs
    · rw [complete?_eq]
    · rfl

/-- The search for the next arrangement of as many candidates finds it. -/
lemma successor?_eq (h : config.length = count) :
    p.successor? count config = (p.later count config).head? := by
  rw [successor?, later]
  cases hreverse : config.reverse with
  | nil => rfl
  | cons last rest =>
    have hlength : rest.length ≠ count := by
      have := congrArg List.length hreverse
      simp only [List.length_reverse, List.length_cons] at this
      omega
    dsimp only
    rw [if_neg hlength, resume?_eq]

/-- What comes after all arrangements that begin with `config` and then a
candidate before `start`. -/
lemma laterFrom_eq (p : Problem) (config : List ℕ) (start : ℕ) (h : config.length < count) :
    p.laterFrom count config.reverse start =
      p.arrangements config start (count - config.length) ++ p.later count config := by
  rw [later]
  cases hreverse : config.reverse with
  | nil =>
    rw [List.reverse_eq_nil_iff.mp hreverse] at h ⊢
    rw [laterFrom, if_pos (by simpa using h)]
    simp
  | cons last rest =>
    have hconfig : config = (last :: rest).reverse := by rw [← hreverse, List.reverse_reverse]
    rw [laterFrom, hconfig]
    simp only [List.length_reverse] at *
    rw [if_pos (by rw [hconfig] at h; simpa using h)]

/-- After the first of the arrangements that extend `config`, there are the
others, and those after all that begin with `config`. -/
lemma later_of_extensions {others : List (List ℕ)}
    (h : p.arrangements config start need = c :: others) :
    p.later (config.length + need) c = others ++ p.later (config.length + need) config := by
  fun_induction arrangements p config start need generalizing others with
  | case1 config start =>
    cases h
    rfl
  | case2 config start need hneed hstart hfits ihwith ihwithout =>
    cases hfirst : p.arrangements (config ++ [start]) (start + 1) (need - 1) with
    | nil =>
      rw [hfirst, List.nil_append] at h
      exact ihwithout h
    | cons c' others' =>
      rw [hfirst, List.cons_append] at h
      obtain ⟨rfl, rfl⟩ := List.cons.inj h
      have hcount : (config ++ [start]).length + (need - 1) = config.length + need := by
        rw [List.length_append, List.length_singleton]
        omega
      have hlater := ihwith hfirst
      rw [hcount, later_append, laterFrom_eq p config (start + 1) (by omega),
        Nat.add_sub_cancel_left] at hlater
      rw [hlater, List.append_assoc]
  | case3 config start need hneed hstart hfits ih => exact ih h
  | case4 => cases h

lemma later_of_laterFrom {rest : List ℕ} {others : List (List ℕ)}
    (h : p.laterFrom count rest start = c :: others) : p.later count c = others := by
  induction rest generalizing start others with
  | nil =>
    rw [laterFrom] at h
    split_ifs at h
    have hlater := later_of_extensions h
    rw [List.length_nil, Nat.zero_add] at hlater
    simpa [later] using hlater
  | cons last rest ih =>
    rw [laterFrom] at h
    rcases hfirst : (if (last :: rest).length < count then p.arrangements (last :: rest).reverse
      start (count - (last :: rest).length) else []) with _ | ⟨c', others'⟩
    · rw [hfirst, List.nil_append] at h
      exact ih h
    · rw [hfirst, List.cons_append] at h
      obtain ⟨rfl, rfl⟩ := List.cons.inj h
      split_ifs at hfirst with hlength
      have hlater := later_of_extensions hfirst
      rw [List.length_reverse, Nat.add_sub_of_le (by omega), List.reverse_cons, later_append,
        List.reverse_reverse] at hlater
      exact hlater

/-- After the first of the arrangements after a given one, there are the
others. -/
lemma later_of_later {others : List (List ℕ)} (h : p.later count config = c :: others) :
    p.later count c = others := by
  rw [later] at h
  cases hreverse : config.reverse with
  | nil =>
    rw [hreverse] at h
    cases h
  | cons last rest =>
    rw [hreverse] at h
    exact later_of_laterFrom h

/-- After the first of all arrangements, there are the others. -/
lemma later_of_arrangements {others : List (List ℕ)}
    (h : p.arrangements [] 0 count = c :: others) : p.later count c = others := by
  have hlater := later_of_extensions h
  rw [List.length_nil, Nat.zero_add] at hlater
  simpa [later] using hlater

lemma length_of_mem_laterFrom {rest : List ℕ} (h : c ∈ p.laterFrom count rest start) :
    c.length = count := by
  induction rest generalizing start with
  | nil =>
    rw [laterFrom] at h
    split_ifs at h
    · rw [length_of_mem_arrangements h, List.length_nil, Nat.zero_add]
    · cases h
  | cons last rest ih =>
    rw [laterFrom] at h
    rcases List.mem_append.mp h with h | h
    · split_ifs at h with hlength
      · rw [length_of_mem_arrangements h, List.length_reverse]
        omega
      · cases h
    · exact ih h

/-- A later arrangement has as many candidates. -/
lemma length_of_mem_later (h : c ∈ p.later count config) : c.length = count := by
  rw [later] at h
  cases hreverse : config.reverse with
  | nil =>
    rw [hreverse] at h
    cases h
  | cons last rest =>
    rw [hreverse] at h
    exact length_of_mem_laterFrom h

/-! ### All arrangements -/

/-- The arrangements that extend `config` by fewer than `need` candidates from
`start` on, those with more candidates first. -/
def fewerFrom (p : Problem) (config : List ℕ) (start : ℕ) : ℕ → List (List ℕ)
  | 0 => []
  | need + 1 => p.arrangements config start need ++ p.fewerFrom config start need

/-- All arrangements of fewer than `count` candidates, those with more
candidates first. -/
abbrev fewer (p : Problem) (count : ℕ) : List (List ℕ) := p.fewerFrom [] 0 count

lemma fewerFrom_succ (config : List ℕ) (start need : ℕ) :
    p.fewerFrom config start (need + 1) =
      p.arrangements config start need ++ p.fewerFrom config start need := rfl

lemma fewer_succ (p : Problem) (count : ℕ) :
    p.fewer (count + 1) = p.arrangements [] 0 count ++ p.fewer count := rfl

/-- All arrangements of fewer candidates: those that ascend, and whose blocks are
apart. -/
lemma mem_fewer {count : ℕ} :
    c ∈ p.fewer count ↔ c.length < count ∧ Ascends c 0 p.size ∧ p.Apart c := by
  induction count with
  | zero => simp [fewer, fewerFrom]
  | succ count ih =>
    rw [fewer_succ, List.mem_append, ih, mem_arrangements (.nil p), Nat.lt_succ_iff_lt_or_eq]
    constructor
    · rintro (⟨ext, rfl, hlength, hascends, hapart⟩ | ⟨hless, hc⟩)
      · exact ⟨.inr hlength, hascends, hapart⟩
      · exact ⟨.inl hless, hc⟩
    · rintro ⟨hless | hlength, hascends, hapart⟩
      · exact .inr ⟨hless, hascends, hapart⟩
      · exact .inl ⟨c, rfl, hlength, hascends, hapart⟩

/-- The arrangements with a candidate and those without it are all of them. -/
lemma length_fewerFrom_take (hstart : start < p.size) (hfits : p.fits config start = true)
    (need : ℕ) :
    (p.fewerFrom config start (need + 1)).length =
      (p.fewerFrom (config ++ [start]) (start + 1) need).length +
        (p.fewerFrom config (start + 1) (need + 1)).length := by
  induction need with
  | zero => simp [fewerFrom, arrangements_zero]
  | succ need ih =>
    rw [fewerFrom_succ, fewerFrom_succ (config ++ [start]), fewerFrom_succ config (start + 1)]
    simp only [arrangements_take hstart hfits, List.length_append, ih]
    omega

lemma fewerFrom_skip (hstart : start < p.size) (hfits : ¬ p.fits config start = true)
    (need : ℕ) : p.fewerFrom config start need = p.fewerFrom config (start + 1) need := by
  induction need with
  | zero => rfl
  | succ need ih => rw [fewerFrom, fewerFrom, ih, arrangements_skip hstart hfits]

lemma length_fewerFrom_end (hstart : ¬ start < p.size) (need : ℕ) :
    (p.fewerFrom config start need).length ≤ 1 := by
  induction need with
  | zero => exact Nat.zero_le 1
  | succ need ih =>
    cases need with
    | zero => simp [fewerFrom, arrangements_zero]
    | succ need =>
      rw [fewerFrom, arrangements_end hstart need.succ_ne_zero, List.nil_append]
      exact ih

/-- There are no more arrangements than sets of candidates. -/
lemma length_fewerFrom (p : Problem) (config : List ℕ) (start need : ℕ) :
    (p.fewerFrom config start need).length ≤ 2 ^ (p.size - start) := by
  by_cases hstart : start < p.size
  · have hpow : 2 ^ (p.size - start) = 2 ^ (p.size - (start + 1)) + 2 ^ (p.size - (start + 1)) := by
      rw [← Nat.two_mul, ← Nat.pow_succ']
      congr 1
      omega
    by_cases hfits : p.fits config start = true
    · cases need with
      | zero => exact Nat.zero_le _
      | succ need =>
        rw [length_fewerFrom_take hstart hfits, hpow]
        exact Nat.add_le_add (length_fewerFrom p _ _ _) (length_fewerFrom p _ _ _)
    · rw [fewerFrom_skip hstart hfits, hpow]
      exact Nat.le_trans (length_fewerFrom p _ _ _) (Nat.le_add_right _ _)
  · exact Nat.le_trans (length_fewerFrom_end hstart need) Nat.one_le_two_pow
termination_by p.size - start

/-- The greedy arrangement is the first of those that add as many candidates. -/
lemma arrangements_greedyFrom (p : Problem) (config : List ℕ) (start : ℕ) :
    ∃ ext, p.greedyFrom config start = config ++ ext ∧
      ∃ others, p.arrangements config start ext.length = (config ++ ext) :: others := by
  fun_induction greedyFrom p config start with
  | case1 config start hstart ih =>
    by_cases hfits : p.fits config start = true
    · rw [dif_pos hfits] at ih
      rw [if_pos hfits]
      obtain ⟨ext, hgreedy, others, hothers⟩ := ih
      refine ⟨start :: ext, by simpa using hgreedy,
        others ++ p.arrangements config (start + 1) (ext.length + 1), ?_⟩
      rw [List.length_cons, arrangements_take hstart hfits, hothers]
      simp
    · rw [dif_neg hfits] at ih
      rw [if_neg hfits]
      obtain ⟨ext, hgreedy, others, hothers⟩ := ih
      exact ⟨ext, hgreedy, others, by rw [arrangements_skip hstart hfits, hothers]⟩
  | case2 config start hstart =>
    refine ⟨[], by simp, [], ?_⟩
    rw [List.length_nil, arrangements_zero, List.append_nil]

/-- The greedy arrangement is the first one with its number of candidates. -/
lemma arrangements_greedy (p : Problem) :
    ∃ others, p.arrangements [] 0 p.greedy.length = p.greedy :: others := by
  obtain ⟨ext, hgreedy, others, hothers⟩ := p.arrangements_greedyFrom [] 0
  rw [greedy, hgreedy]
  exact ⟨others, hothers⟩

/-- The greedy arrangement is one with its number of candidates. -/
lemma greedy_mem (p : Problem) : p.greedy ∈ p.arrangements [] 0 p.greedy.length := by
  obtain ⟨others, hgreedy⟩ := p.arrangements_greedy
  rw [hgreedy]
  exact List.mem_cons_self

/-- The first candidates of the greedy arrangement make one of any smaller
number. -/
lemma exists_mem_arrangements (h : count ≤ p.greedy.length) :
    ∃ config, config ∈ p.arrangements [] 0 count := by
  obtain ⟨ext, hgreedy, -, hascends, hapart⟩ := (mem_arrangements (.nil p)).mp p.greedy_mem
  rw [List.nil_append] at hgreedy
  subst hgreedy
  have htake := p.greedy.take_sublist count
  refine ⟨p.greedy.take count, (mem_arrangements (.nil p)).mpr
    ⟨p.greedy.take count, rfl, List.length_take_of_le h, ⟨hascends.1.sublist htake, ?_⟩,
      hapart.sublist htake⟩⟩
  intro i hi
  exact hascends.2 i (htake.subset hi)

lemma exists_complete? (h : count ≤ p.greedy.length) :
    ∃ first, p.complete? [] 0 count = some first := by
  obtain ⟨config, hconfig⟩ := exists_mem_arrangements h
  rw [complete?_eq]
  exact ⟨_, List.head?_eq_some_head (List.ne_nil_of_mem hconfig)⟩

/-! ### The order of arrangements -/

/-- An arrangement comes before those with fewer candidates, and before those
with as many that follow it in lexicographic order. -/
def Precedes (c d : List ℕ) : Prop := d.length < c.length ∨ c.length = d.length ∧ c < d

lemma Precedes.ne {d : List ℕ} (h : Precedes c d) : c ≠ d := by
  rintro rfl
  rcases h with hless | ⟨-, hless⟩
  · exact lt_irrefl _ hless
  · exact List.lt_irrefl c hless

/-- The arrangements that extend one come in lexicographic order. -/
lemma arrangements_sorted (h : p.Apart config) :
    (p.arrangements config start need).Pairwise (· < ·) := by
  fun_induction arrangements p config start need with
  | case1 config start => exact List.pairwise_singleton _ _
  | case2 config start need hneed hstart hfits ihwith ihwithout =>
    refine List.pairwise_append.mpr ⟨ihwith (h.append hfits), ihwithout h, ?_⟩
    intro c hc d hd
    obtain ⟨ext, rfl, -⟩ := (mem_arrangements (h.append hfits)).mp hc
    obtain ⟨ext', rfl, hlength, hascends, -⟩ := (mem_arrangements h).mp hd
    cases ext' with
    | nil => exact absurd hlength.symm hneed
    | cons i ext' =>
      -- one takes the candidate `start`, the other begins with a later one
      rw [List.append_assoc, List.singleton_append]
      exact List.append_left_lt (List.cons_lt_cons_iff.mpr (.inl (ascends_cons.mp hascends).1.1))
  | case3 config start need hneed hstart hfits ih => exact ih h
  | case4 => exact .nil

lemma fewer_precedes (p : Problem) (count : ℕ) : (p.fewer count).Pairwise Precedes := by
  induction count with
  | zero => exact .nil
  | succ count ih =>
    have hlength : ∀ c ∈ p.arrangements [] 0 count, c.length = count := fun c hc => by
      rw [length_of_mem_arrangements hc, List.length_nil, Nat.zero_add]
    rw [fewer_succ]
    refine List.pairwise_append.mpr ⟨?_, ih, ?_⟩
    · refine (arrangements_sorted (.nil p)).imp_of_mem ?_
      intro c d hc hd hless
      exact .inr ⟨(hlength c hc).trans (hlength d hd).symm, hless⟩
    · intro c hc d hd
      rw [Precedes, hlength c hc]
      exact .inl (mem_fewer.mp hd).1

end Problem

end Datapath.Tiling
