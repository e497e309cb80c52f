/-
Cascades of blocks.

* `above_of_above?`: what is found on top of a block lies there, if the far corner
  of the block can be counted.
* `chains_found`, `chains_perm`: the cascades are blocks found on top of each
  other, and every block is in exactly one of them.
* `next_links`: the links that they leave lead through one cascade each.
* `members_chainPlacements`, `members_perm`: following the links from its lowest
  block gives a cascade back, and so all blocks from all of them.
* `cascade_stacked`, `cascades_perm`: so the cascades that are read off the
  links are stacks, and have the rectangles of all blocks.
-/
import Datapath.Proofs.Tiling.Stack
import Datapath.Tiling.Chain
import Mathlib.Data.List.Induction
import Mathlib.Data.List.Perm.Basic
import Mathlib.Data.List.Sort
import Mathlib.Tactic.SplitIfs

namespace Datapath.Tiling

variable {ps : Array Placement}

/-! ### Cascades as stacks -/

/-- Block `j` lies directly on top of block `i`. -/
def Above (ps : Array Placement) (i j : ℕ) : Prop :=
  ∃ p q, ps[i]? = some p ∧ ps[j]? = some q ∧ p.rect.Above q.rect

/-- What is found on top of a block lies there. -/
lemma above_of_above? (hwords : ∀ p ∈ ps, p.rect.InWords) {i j : ℕ}
    (h : above? ps i = some j) : Above ps i j := by
  simp only [above?, Option.bind_eq_bind, Option.bind_eq_some_iff] at h
  obtain ⟨p, hp, hfind⟩ := h
  obtain ⟨hj, hfound, -⟩ := Array.findIdx?_eq_some_iff_getElem.mp hfind
  simp only [Bool.and_eq_true, beq_iff_eq] at hfound
  obtain ⟨⟨hx, hwidth⟩, hy⟩ := hfound
  rw [Rect.top_eq (hwords p (Array.mem_of_getElem? hp))] at hy
  exact ⟨p, ps[j], hp, Array.getElem?_eq_getElem hj, hx, hwidth, hy⟩

/-- Each block is found on top of the one before. -/
def Found (ps : Array Placement) (c : List ℕ) : Prop := c.IsChain fun i j => above? ps i = some j

lemma Found.stacked {c : List ℕ} (h : Found ps c) (hwords : ∀ p ∈ ps, p.rect.InWords) :
    c.IsChain (Above ps) :=
  h.imp fun _ _ => above_of_above? hwords

/-- A block belongs to no cascade yet. -/
def Free (linked : Array Bool) (i : ℕ) : Prop := linked.getD i true = false

lemma free_set {linked : Array Bool} {i k : ℕ} :
    Free (linked.setIfInBounds i true) k ↔ Free linked k ∧ k ≠ i := by
  by_cases hne : i = k
  · subst hne
    by_cases hi : i < linked.size <;> simp [Free, Array.getD, hi]
  · by_cases hk : k < linked.size <;> simp [Free, Array.getD, hk, hne, Ne.symm hne]

lemma free_replicate {n k : ℕ} : Free (Array.replicate n false) k ↔ k < n := by
  by_cases hk : k < n <;> simp [Free, Array.getD, hk]

/-- The blocks are found on top of each other, from the first one up. They were
free, and they are the ones that are not free any more. -/
lemma climb_spec (ps : Array Placement) (limit : ℕ) (linked : Array Bool) (i : ℕ) :
    Found ps (i :: (climb ps limit linked i).1) ∧ (climb ps limit linked i).1.Nodup ∧
      (∀ k ∈ (climb ps limit linked i).1, Free linked k) ∧
      ∀ k, Free (climb ps limit linked i).2 k ↔
        Free linked k ∧ k ∉ (climb ps limit linked i).1 := by
  induction limit generalizing linked i with
  | zero => simp [climb, Found]
  | succ limit ih =>
    rw [climb]
    split
    case h_1 j habove =>
      split_ifs with hold
      · simp [Found]
      · obtain ⟨hchain, hnodup, hfree, hlinked⟩ := ih (linked.setIfInBounds j true) j
        have hj : Free linked j := by simpa [Free] using hold
        refine ⟨.cons_cons habove hchain,
          List.nodup_cons.mpr ⟨fun hmem => ?_, hnodup⟩,
          List.forall_mem_cons.mpr ⟨hj, fun k hk => (free_set.mp (hfree k hk)).1⟩, fun k => ?_⟩
        · exact (free_set.mp (hfree j hmem)).2 rfl
        · rw [hlinked, free_set, List.mem_cons, not_or, and_assoc]
    case h_2 => simp [Found]

/-- The cascades are made of different blocks that were free, and no block of the
order is left out. -/
lemma chainsFrom_spec (ps : Array Placement) (limit : ℕ) (order : List ℕ) (linked : Array Bool) :
    (∀ c ∈ chainsFrom ps limit order linked, c ≠ [] ∧ Found ps c) ∧
      (chainsFrom ps limit order linked).flatten.Nodup ∧
      (∀ k ∈ (chainsFrom ps limit order linked).flatten, Free linked k) ∧
      ∀ k ∈ order, Free linked k → k ∈ (chainsFrom ps limit order linked).flatten := by
  induction order generalizing linked with
  | nil => simp [chainsFrom]
  | cons i order ih =>
    rw [chainsFrom]
    split_ifs with hold
    · obtain ⟨hchains, hnodup, hfree, hall⟩ := ih linked
      refine ⟨hchains, hnodup, hfree, List.forall_mem_cons.mpr ⟨fun hi => ?_, hall⟩⟩
      rw [Free, hold] at hi
      cases hi
    · have hi : Free linked i := by simpa [Free] using hold
      have hclimb := climb_spec ps limit (linked.setIfInBounds i true) i
      have hrest := ih (climb ps limit (linked.setIfInBounds i true) i).2
      dsimp only
      generalize climb ps limit (linked.setIfInBounds i true) i = step at *
      obtain ⟨rest, linked'⟩ := step
      obtain ⟨hchain, hnodup, hfree, hlinked⟩ := hclimb
      obtain ⟨hchains, hnodups, hfrees, hall⟩ := hrest
      simp only [free_set] at hfree hlinked
      refine ⟨List.forall_mem_cons.mpr ⟨⟨List.cons_ne_nil _ _, hchain⟩, hchains⟩, ?_, ?_, ?_⟩
      · have hhead : (i :: rest).Nodup :=
          List.nodup_cons.mpr ⟨fun hmem => (hfree i hmem).2 rfl, hnodup⟩
        refine List.nodup_append.mpr ⟨hhead, hnodups, ?_⟩
        rintro k hk k' hk' rfl
        obtain ⟨⟨-, hne⟩, hnot⟩ := (hlinked k).mp (hfrees k hk')
        exact (List.mem_cons.mp hk).elim hne hnot
      · intro k hk
        rcases List.mem_append.mp hk with hk | hk
        · rcases List.mem_cons.mp hk with rfl | hk
          · exact hi
          · exact (hfree k hk).1
        · exact ((hlinked k).mp (hfrees k hk)).1.1
      · intro k hk hk'
        by_cases hmem : k ∈ i :: rest
        · exact List.mem_append_left _ hmem
        · obtain ⟨hne, hnot⟩ := not_or.mp (List.mem_cons.not.mp hmem)
          refine List.mem_append_right _ (hall k ?_ ((hlinked k).mpr ⟨⟨hk', hne⟩, hnot⟩))
          exact (List.mem_cons.mp hk).resolve_left hne

/-- The blocks of a cascade are found on top of each other. -/
lemma chains_found {maxLen : ℕ} {c : List ℕ} (hc : c ∈ chains ps maxLen) : c ≠ [] ∧ Found ps c :=
  (chainsFrom_spec _ _ _ _).1 c hc

/-- Every block is in exactly one cascade. -/
lemma chains_perm (ps : Array Placement) (maxLen : ℕ) :
    (chains ps maxLen).flatten.Perm (List.range ps.size) := by
  obtain ⟨-, hnodup, hfree, hall⟩ :=
    chainsFrom_spec ps (maxLen - 1) (scanOrder ps) (Array.replicate ps.size false)
  simp only [free_replicate] at hfree hall
  refine (List.perm_ext_iff_of_nodup hnodup List.nodup_range).mpr ?_
  intro k
  rw [List.mem_range]
  exact ⟨hfree k, fun hk => hall k (List.mem_mergeSort.mpr (List.mem_range.mpr hk)) hk⟩

/-! ### Links -/

/-- The block after block `k` in a cascade. -/
def after : List ℕ → ℕ → Option ℕ
  | i :: j :: rest, k => if k = i then some j else after (j :: rest) k
  | _, _ => none

lemma after_eq_none {c : List ℕ} {k : ℕ} (hk : k ∉ c) : after c k = none := by
  induction c with
  | nil => rfl
  | cons i c ih =>
    obtain ⟨hne, hk⟩ := not_or.mp (List.mem_cons.not.mp hk)
    cases c with
    | nil => rfl
    | cons j c => rw [after, if_neg hne, ih hk]

lemma after_append {low high : List ℕ} {k : ℕ} (h : (low ++ k :: high).Nodup) :
    after (low ++ k :: high) k = high.head? := by
  induction low with
  | nil =>
    cases high with
    | nil => rfl
    | cons j high => rw [List.nil_append, after, if_pos rfl, List.head?_cons]
  | cons i low ih =>
    obtain ⟨hnot, hrest⟩ := List.nodup_cons.mp h
    have hne : k ≠ i := by
      rintro rfl
      exact hnot (List.mem_append_right _ List.mem_cons_self)
    rw [← ih hrest, List.cons_append]
    cases hlow : low ++ k :: high with
    | nil => simp at hlow
    | cons j rest => rw [after, if_neg hne]

/-- The link of block `k` upwards. -/
def next (ps : Array Placement) (k : ℕ) : Option ℕ := ps[k]?.bind (·.next)

/-- Linking a cascade links its first block to the second, and then goes on. -/
lemma link_cons (ps : Array Placement) (i j : ℕ) (rest : List ℕ) :
    link ps (i :: j :: rest) =
      link ((ps.modify i fun p => { p with next := some j }).modify j
        fun p => { p with prev := some i }) (j :: rest) := rfl

lemma size_link (c : List ℕ) (ps : Array Placement) : (link ps c).size = ps.size := by
  induction c generalizing ps with
  | nil => rfl
  | cons i c ih =>
    cases c with
    | nil => rfl
    | cons j c => rw [link_cons, ih, Array.size_modify, Array.size_modify]

/-- Links leave the rectangles as they are. -/
lemma rect_link (c : List ℕ) (ps : Array Placement) (k : ℕ) :
    (link ps c)[k]?.map (·.rect) = ps[k]?.map (·.rect) := by
  induction c generalizing ps with
  | nil => rfl
  | cons i c ih =>
    cases c with
    | nil => rfl
    | cons j c =>
      rw [link_cons, ih, Array.getElem?_modify, Array.getElem?_modify]
      split_ifs <;> simp [Function.comp_def]

lemma next_modify {i : ℕ} (hi : i < ps.size) (j k : ℕ) :
    next ((ps.modify i fun p => { p with next := some j }).modify j
      fun p => { p with prev := some i }) k = if k = i then some j else next ps k := by
  have hprev : ∀ o : Option Placement,
      (o.map fun p => { p with prev := some i }).bind (·.next) = o.bind (·.next) := by
    intro o
    cases o <;> rfl
  rw [next, Array.getElem?_modify, Array.getElem?_modify, next]
  by_cases hk : k = i
  · subst hk
    split_ifs <;> simp [hi]
  · rw [if_neg (Ne.symm hk), if_neg hk]
    split_ifs
    · exact hprev _
    · rfl

/-- A cascade links its blocks, and the others keep their links. -/
lemma next_link {c : List ℕ} (hsize : ∀ k ∈ c, k < ps.size) (hnodup : c.Nodup) (k : ℕ) :
    next (link ps c) k = (after c k).or (next ps k) := by
  induction c generalizing ps with
  | nil => rfl
  | cons i c ih =>
    cases c with
    | nil => rfl
    | cons j c =>
      obtain ⟨hnot, hrest⟩ := List.nodup_cons.mp hnodup
      obtain ⟨hi, hsize⟩ := List.forall_mem_cons.mp hsize
      rw [link_cons, ih (by simpa using hsize) hrest, next_modify hi, after]
      split_ifs with hk
      · subst hk
        rw [after_eq_none hnot, Option.none_or, Option.some_or]
      · rfl

lemma size_links (cs : List (List ℕ)) (ps : Array Placement) :
    (cs.foldl link ps).size = ps.size := by
  induction cs generalizing ps with
  | nil => rfl
  | cons c cs ih => rw [List.foldl_cons, ih, size_link]

lemma rect_links (cs : List (List ℕ)) (ps : Array Placement) (k : ℕ) :
    (cs.foldl link ps)[k]?.map (·.rect) = ps[k]?.map (·.rect) := by
  induction cs generalizing ps with
  | nil => rfl
  | cons c cs ih => rw [List.foldl_cons, ih, rect_link]

/-- Cascades leave the links of all other blocks alone. -/
lemma next_links_of_not_mem {cs : List (List ℕ)} (hsize : ∀ k ∈ cs.flatten, k < ps.size)
    (hnodup : cs.flatten.Nodup) {k : ℕ} (hk : k ∉ cs.flatten) :
    next (cs.foldl link ps) k = next ps k := by
  induction cs generalizing ps with
  | nil => rfl
  | cons c cs ih =>
    obtain ⟨hc, hcs, -⟩ := List.nodup_append.mp hnodup
    obtain ⟨hsize, hsizes⟩ := List.forall_mem_append.mp hsize
    obtain ⟨hkc, hkcs⟩ := not_or.mp (List.mem_append.not.mp hk)
    rw [List.foldl_cons, ih (by rwa [size_link]) hcs hkcs, next_link hsize hc, after_eq_none hkc,
      Option.none_or]

/-- All cascades link their blocks. -/
lemma next_links {cs : List (List ℕ)} (hsize : ∀ k ∈ cs.flatten, k < ps.size)
    (hnodup : cs.flatten.Nodup) {c : List ℕ} (hmem : c ∈ cs) {k : ℕ} (hk : k ∈ c) :
    next (cs.foldl link ps) k = (after c k).or (next ps k) := by
  induction cs generalizing ps with
  | nil => exact absurd hmem List.not_mem_nil
  | cons c₀ cs ih =>
    obtain ⟨hc₀, hcs, hapart⟩ := List.nodup_append.mp hnodup
    obtain ⟨hsize, hsizes⟩ := List.forall_mem_append.mp hsize
    have hsizes' : ∀ k ∈ cs.flatten, k < (link ps c₀).size := by rwa [size_link]
    rw [List.foldl_cons]
    rcases List.mem_cons.mp hmem with rfl | hmem
    · rw [next_links_of_not_mem hsizes' hcs fun hk' => hapart k hk k hk' rfl, next_link hsize hc₀]
    · have hk₀ : k ∉ c₀ := fun hk' =>
        hapart k hk' k (List.mem_flatten.mpr ⟨c, hmem, hk⟩) rfl
      rw [ih hsizes' hcs hmem, next_link hsize hc₀, after_eq_none hk₀, Option.none_or]

/-- Following the links from a block gives the rest of its cascade. -/
lemma follow_eq (low : List ℕ) {high : List ℕ} {k limit : ℕ}
    (hnext : ∀ i ∈ low ++ k :: high, next ps i = after (low ++ k :: high) i)
    (hnodup : (low ++ k :: high).Nodup) (hlimit : high.length ≤ limit) :
    follow ps limit k = high := by
  induction limit generalizing low k high with
  | zero => rw [List.eq_nil_of_length_eq_zero (Nat.le_zero.mp hlimit), follow]
  | succ limit ih =>
    have hk := hnext k (List.mem_append_right _ List.mem_cons_self)
    rw [after_append hnodup, next] at hk
    rw [follow, hk]
    cases high with
    | nil => rfl
    | cons j high =>
      have happend : low ++ k :: j :: high = (low ++ [k]) ++ j :: high := by simp
      rw [happend] at hnext hnodup
      dsimp only [List.head?_cons]
      rw [ih _ hnext hnodup (Nat.le_of_succ_le_succ hlimit)]

/-! ### Cascades read off the links -/

/-- The links lead through each cascade, whatever they were before. -/
lemma next_chainPlacements {maxLen k : ℕ} {c : List ℕ} (hc : c ∈ chains ps maxLen) (hk : k ∈ c) :
    next (chainPlacements ps maxLen).2 k = after c k := by
  have hperm := chains_perm ps maxLen
  have hnodup := hperm.nodup_iff.mpr List.nodup_range
  rw [chainPlacements, next_links (fun k hk => ?_) hnodup hc hk, next, Array.getElem?_map]
  · cases ps[k]? <;> simp
  · rw [Array.size_map]
    exact List.mem_range.mp (hperm.mem_iff.mp hk)

lemma nodup_of_mem_chains {maxLen : ℕ} {c : List ℕ} (hc : c ∈ chains ps maxLen) : c.Nodup :=
  (List.nodup_flatten.mp ((chains_perm ps maxLen).nodup_iff.mpr List.nodup_range)).1 c hc

lemma size_chainPlacements (ps : Array Placement) (maxLen : ℕ) :
    (chainPlacements ps maxLen).2.size = ps.size := by
  rw [chainPlacements, size_links, Array.size_map]

/-- No cascade has more blocks than there are. -/
lemma length_le_of_mem_chains {maxLen : ℕ} {c : List ℕ} (hc : c ∈ chains ps maxLen) :
    c.length ≤ ps.size := by
  have hlength := (List.sublist_flatten_of_mem hc).length_le
  rwa [(chains_perm ps maxLen).length_eq, List.length_range] at hlength

/-- Following the links from its lowest block gives a cascade back. -/
lemma members_chainPlacements {maxLen i : ℕ} {rest : List ℕ}
    (hc : i :: rest ∈ chains ps maxLen) :
    members (chainPlacements ps maxLen).2 i = i :: rest := by
  have hlength := length_le_of_mem_chains hc
  rw [List.length_cons] at hlength
  rw [members, size_chainPlacements, follow_eq [] (fun k hk => next_chainPlacements hc hk)
    (nodup_of_mem_chains hc) (by omega)]

/-- The blocks of a cascade, given by its lowest one. -/
def cascade (ps : Array Placement) (head : ℕ) : List Placement :=
  (members ps head).filterMap (ps[·]?)

lemma rect_chainPlacements (ps : Array Placement) (maxLen k : ℕ) :
    (chainPlacements ps maxLen).2[k]?.map (·.rect) = ps[k]?.map (·.rect) := by
  rw [chainPlacements, rect_links, Array.getElem?_map, Option.map_map]
  rfl

/-- The rectangles of a cascade are those of its blocks. -/
lemma map_cascade {maxLen i : ℕ} {rest : List ℕ} (hc : i :: rest ∈ chains ps maxLen) :
    (cascade (chainPlacements ps maxLen).2 i).map (·.rect) =
      (i :: rest).filterMap fun k => ps[k]?.map (·.rect) := by
  rw [cascade, members_chainPlacements hc, List.map_filterMap]
  simp only [rect_chainPlacements]

lemma mem_heads {maxLen i : ℕ} :
    i ∈ (chainPlacements ps maxLen).1 ↔ ∃ rest, i :: rest ∈ chains ps maxLen := by
  rw [chainPlacements, List.mem_mergeSort, List.mem_filterMap]
  simp only [List.head?_eq_some_iff]
  exact ⟨fun ⟨_, hc, rest, h⟩ => ⟨rest, h ▸ hc⟩, fun ⟨rest, hc⟩ => ⟨_, hc, rest, rfl⟩⟩

lemma isChain_filterMap {c : List ℕ} (h : c.IsChain (Above ps)) :
    (c.filterMap fun k => ps[k]?.map (·.rect)).IsChain Rect.Above := by
  induction c with
  | nil => exact .nil
  | cons i c ih =>
    cases c with
    | nil => cases hi : ps[i]? <;> simp [hi]
    | cons j c =>
      obtain ⟨⟨p, q, hp, hq, habove⟩, hrest⟩ := List.isChain_cons_cons.mp h
      have hchain := ih hrest
      simp only [List.filterMap_cons, hp, hq, Option.map_some] at hchain ⊢
      exact .cons_cons habove hchain

/-- The blocks of a cascade are on top of each other. -/
theorem cascade_stacked (hwords : ∀ p ∈ ps, p.rect.InWords) {maxLen head : ℕ}
    (h : head ∈ (chainPlacements ps maxLen).1) :
    ((cascade (chainPlacements ps maxLen).2 head).map (·.rect)).IsChain Rect.Above := by
  obtain ⟨rest, hc⟩ := mem_heads.mp h
  rw [map_cascade hc]
  exact isChain_filterMap ((chains_found hc).2.stacked hwords)

/-- The entries of a list are those at its positions. -/
lemma filterMap_range {α β : Type} (l : List α) (f : α → β) :
    ((List.range l.length).filterMap fun k => l[k]?.map f) = l.map f := by
  induction l using List.reverseRecOn with
  | nil => rfl
  | append_singleton l a ih =>
    rw [List.length_append, List.length_singleton, List.range_succ, List.filterMap_append,
      List.map_append, ← ih]
    congr 1
    · refine List.filterMap_congr ?_
      intro k hk
      rw [List.getElem?_append_left (List.mem_range.mp hk)]
    · simp

/-- **Every block is a member of one cascade.** The members of all cascades,
read off the links from their lowest blocks, are all blocks, each once. -/
theorem members_perm (ps : Array Placement) (maxLen : ℕ) :
    ((chainPlacements ps maxLen).1.flatMap (members (chainPlacements ps maxLen).2)).Perm
      (List.range ps.size) := by
  have hmembers : ∀ cs ⊆ chains ps maxLen,
      (cs.filterMap List.head?).flatMap (members (chainPlacements ps maxLen).2) = cs.flatten := by
    intro cs hcs
    induction cs with
    | nil => rfl
    | cons c cs ih =>
      obtain ⟨hc, hrest⟩ := List.cons_subset.mp hcs
      obtain ⟨i, rest, rfl⟩ := List.exists_cons_of_ne_nil (chains_found hc).1
      rw [List.filterMap_cons, List.head?_cons, List.flatMap_cons, members_chainPlacements hc,
        ih hrest, List.flatten_cons]
  have hsorted := List.mergeSort_perm ((chains ps maxLen).filterMap List.head?) (· ≤ ·)
  have hheads := hsorted.flatMap_right (members (chainPlacements ps maxLen).2)
  rw [hmembers _ (List.Subset.refl _)] at hheads
  exact hheads.trans (chains_perm ps maxLen)

/-- The cascades have the rectangles of all blocks. -/
theorem cascades_perm (ps : Array Placement) (maxLen : ℕ) :
    ((chainPlacements ps maxLen).1.flatMap fun head =>
      (cascade (chainPlacements ps maxLen).2 head).map (·.rect)).Perm
        (ps.toList.map (·.rect)) := by
  have hrects : ((chainPlacements ps maxLen).1.flatMap fun head =>
      (cascade (chainPlacements ps maxLen).2 head).map (·.rect)) =
        ((chainPlacements ps maxLen).1.flatMap (members (chainPlacements ps maxLen).2)).filterMap
          fun k => ps[k]?.map (·.rect) := by
    rw [List.filterMap_flatMap]
    simp only [cascade, List.map_filterMap, rect_chainPlacements]
  have hperm := (members_perm ps maxLen).filterMap fun k => ps[k]?.map (·.rect)
  rw [← hrects, ← Array.length_toList] at hperm
  simp only [← Array.getElem?_toList, filterMap_range] at hperm
  exact hperm

end Datapath.Tiling
