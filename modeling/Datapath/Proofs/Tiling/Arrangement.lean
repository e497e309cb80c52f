/-
Arrangements whose blocks are apart.

* `Problem.Apart`: no two candidates of an arrangement overlap.
* `Problem.Apart.append`: a candidate that fits can be added.
* `greedy_apart`, `complete?_apart`, `successor?_apart`: the exhaustive search
  only makes such arrangements.
* `neighbour_apart`: a random walk stays among them, whatever the random
  choices are.
-/
import Datapath.Tiling.Anneal
import Mathlib.Data.List.Perm.Subperm
import Mathlib.Data.Nat.Notation
import Mathlib.Tactic.Lemma
import Mathlib.Tactic.SplitIfs

namespace Datapath.Tiling

namespace Problem

variable {p : Problem} {config : List ℕ} {i : ℕ}

/-- No two candidates of the arrangement overlap. -/
def Apart (p : Problem) (config : List ℕ) : Prop :=
  config.Pairwise fun i j => p.clash i j = false

lemma clash_comm (p : Problem) (i j : ℕ) : p.clash i j = p.clash j i := by
  have hoverlaps : ∀ r s : Rect, r.overlaps s = s.overlaps r := by
    intro r s
    rw [Rect.overlaps, Rect.overlaps, Bool.eq_iff_iff]
    simp only [Bool.and_eq_true]
    tauto
  rw [clash, clash]
  cases p.candidates[i]? <;> cases p.candidates[j]?
  case some.some c d => exact hoverlaps c.rect d.rect
  all_goals rfl

namespace Apart

lemma nil (p : Problem) : p.Apart [] := List.Pairwise.nil

lemma sublist {config' : List ℕ} (h : p.Apart config) (hsub : config'.Sublist config) :
    p.Apart config' :=
  List.Pairwise.sublist hsub h

lemma perm {config' : List ℕ} (h : p.Apart config) (hperm : config.Perm config') :
    p.Apart config' :=
  hperm.pairwise h fun {i j} hij => by rwa [clash_comm]

lemma subperm {config' : List ℕ} (h : p.Apart config) (hsub : config'.Subperm config) :
    p.Apart config' := by
  obtain ⟨l, hperm, hl⟩ := hsub
  exact (h.sublist hl).perm hperm

/-- A candidate that fits can be added. -/
lemma append (h : p.Apart config) (hfits : p.fits config i = true) : p.Apart (config ++ [i]) := by
  refine List.pairwise_append.mpr ⟨h, List.pairwise_singleton _ _, ?_⟩
  intro j hj k hk
  rw [List.mem_singleton.mp hk]
  simpa using List.all_eq_true.mp hfits j hj

lemma sorted (h : p.Apart config) : p.Apart (config.mergeSort (· ≤ ·)) :=
  h.perm (List.mergeSort_perm _ _).symm

end Apart

/-! ### The exhaustive search -/

lemma greedyFrom_apart (h : p.Apart config) (start : ℕ) : p.Apart (p.greedyFrom config start) := by
  fun_induction greedyFrom p config start with
  | case1 config start hstart ih =>
    refine ih ?_
    split_ifs with hfits
    · exact h.append hfits
    · exact h
  | case2 => exact h

lemma greedy_apart (p : Problem) : p.Apart p.greedy := greedyFrom_apart (.nil p) 0

lemma complete?_apart {start need : ℕ} {next : List ℕ} (h : p.Apart config)
    (hnext : p.complete? config start need = some next) : p.Apart next := by
  fun_induction complete? p config start need with
  | case1 => cases hnext; exact h
  | case2 config start need hneed hstart hfits ihwith ihwithout =>
    rcases Option.or_eq_some_iff.mp hnext with hnext | ⟨-, hnext⟩
    · exact ihwith (h.append hfits) hnext
    · exact ihwithout h hnext
  | case3 config start need hneed hstart hfits ih => exact ih h hnext
  | case4 => cases hnext

lemma resume?_apart {count start : ℕ} {rest next : List ℕ} (h : p.Apart rest.reverse)
    (hnext : p.resume? count rest start = some next) : p.Apart next := by
  induction rest generalizing start with
  | nil =>
    rw [resume?] at hnext
    split_ifs at hnext
    exact complete?_apart h hnext
  | cons last rest ih =>
    rw [resume?] at hnext
    rcases Option.or_eq_some_iff.mp hnext with hnext | ⟨-, hnext⟩
    · split_ifs at hnext
      exact complete?_apart h hnext
    · refine ih (h.sublist ?_) hnext
      simp

lemma successor?_apart {count : ℕ} {next : List ℕ} (h : p.Apart config)
    (hnext : p.successor? count config = some next) : p.Apart next := by
  rw [successor?] at hnext
  split at hnext
  · cases hnext
  · rename_i last rest hreverse
    have hrest : p.Apart rest.reverse := by
      refine h.sublist ?_
      rw [← List.reverse_reverse config, hreverse]
      simp
    split_ifs at hnext
    · cases hnext
      exact hrest
    · exact resume?_apart hrest hnext

end Problem

/-! ### The random walk -/

section Walk

variable {σ : Type} {p : Problem} {config : List ℕ}

/-- What is left without an entry is made of the other entries. -/
lemma swapRemove_subperm (config : List ℕ) (i : ℕ) : (swapRemove config i).Subperm config := by
  rcases List.eq_nil_or_concat config with rfl | ⟨others, last, rfl⟩
  · exact List.Subperm.refl []
  · rw [List.concat_eq_append, swapRemove, List.getLast?_concat]
    dsimp only
    rcases Nat.lt_or_ge i others.length with hi | hi
    · -- the last entry takes the place of entry `i`
      rw [List.set_append_left _ _ hi, List.dropLast_concat]
      refine (List.set_perm_cons_eraseIdx hi last).subperm.trans ?_
      refine List.Subperm.trans ?_ (List.perm_append_singleton last others).symm.subperm
      exact ((List.eraseIdx_sublist others i).cons_cons last).subperm
    · rw [List.set_append_right _ _ hi]
      refine List.Sublist.subperm ?_
      cases i - others.length <;> simp

variable {source : Random.Source σ} {r : σ}

/-- A random candidate fits, if one is found. -/
lemma fits_of_randomFit {attempts c : ℕ}
    (h : (randomFit source p config attempts r).1 = some c) : p.fits config c = true := by
  induction attempts generalizing r with
  | zero => cases h
  | succ attempts ih =>
    rw [randomFit] at h
    dsimp only at h
    split_ifs at h with hfits
    · cases h
      exact hfits
    · exact ih h

lemma withBlock_apart {next : List ℕ} (h : p.Apart config)
    (hnext : (withBlock source p config r).1 = some next) : p.Apart next := by
  rw [withBlock] at hnext
  obtain ⟨c, hc, rfl⟩ := Option.map_eq_some_iff.mp hnext
  exact (h.append (fits_of_randomFit hc)).sorted

/-- A block that is moved, removed or added leaves all blocks apart. -/
lemma neighbour_apart {next : List ℕ} (h : p.Apart config)
    (hnext : (neighbour source p config r).1 = some next) : p.Apart next := by
  have hremove := fun i => h.subperm (swapRemove_subperm config i)
  rw [neighbour] at hnext
  dsimp only at hnext
  split_ifs at hnext
  · exact withBlock_apart (hremove _) hnext
  · cases hnext
    exact (hremove _).sorted
  · exact withBlock_apart h hnext

end Walk

end Datapath.Tiling
