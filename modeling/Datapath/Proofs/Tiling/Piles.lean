/-
Piles of blocks, cut into cascades.

* `Packed`: blocks that are not empty and have no cell in common. One block at most lies
  directly on top of a block, and one directly below it (`Packed.eq_above`,
  `Packed.eq_below`).
* `Settled`: what is known, while the blocks are gone through from low to high,
  about those that belong to a cascade already. `Settled.climb` is one cascade
  more, and `full_chainsFrom` all of them: a cascade ends only if it has as many
  blocks as allowed or nothing lies on top of it.
* `Pile`: blocks on top of each other, as many as there are.
* `Chained.cut`: a pile is cut into full cascades and one for the rest.
* `chainPlacements_cascades`: what the links make of the blocks, and of piles;
  `chainPlacements_past`: where a far corner cannot be counted.
-/
import Datapath.Proofs.Tiling.Links
import Datapath.Proofs.Words

namespace Datapath.Tiling

variable {ps linked : Array Placement} {i j k limit maxLen : ℕ} {c heads order : List ℕ}
  {taken : Array Bool}

/-! ### Blocks that do not overlap -/

/-- Blocks that are not empty and have no cell in common. Their far corners can be
counted. -/
structure Packed (ps : Array Placement) : Prop where
  words : ∀ p ∈ ps, p.rect.InWords
  area : ∀ p ∈ ps, 0 < p.rect.area
  apart : (ps.toList.map (·.rect)).Pairwise fun r s => ¬ r.Meets s

/-- Block `i` lies somewhere below block `j`, at the same column. -/
def Below (ps : Array Placement) (i j : ℕ) : Prop :=
  ∃ p q, ps[i]? = some p ∧ ps[j]? = some q ∧ p.rect.x = q.rect.x ∧ p.rect.y < q.rect.y

instance (r s : Rect) : Decidable (r.Above s) := inferInstanceAs (Decidable (_ ∧ _ ∧ _))

instance (i j : ℕ) : Decidable (Above ps i j) :=
  decidable_of_iff (∃ p ∈ ps[i]?, ∃ q ∈ ps[j]?, p.rect.Above q.rect)
    ⟨fun ⟨p, hp, q, hq, h⟩ => ⟨p, q, hp, hq, h⟩, fun ⟨p, q, hp, hq, h⟩ => ⟨p, hp, q, hq, h⟩⟩

lemma Above.lt_size (h : Above ps i j) : i < ps.size ∧ j < ps.size := by
  obtain ⟨p, q, hp, hq, -⟩ := h
  exact ⟨(Array.getElem?_eq_some_iff.mp hp).1, (Array.getElem?_eq_some_iff.mp hq).1⟩

lemma Below.trans (h : Below ps i j) (h' : Below ps j k) : Below ps i k := by
  obtain ⟨p, q, hp, hq, hx, hy⟩ := h
  obtain ⟨q', r, hq', hr, hx', hy'⟩ := h'
  rw [hq, Option.some.injEq] at hq'
  subst hq'
  exact ⟨p, r, hp, hr, hx.trans hx', hy.trans hy'⟩

lemma Below.irrefl (i : ℕ) : ¬ Below ps i i := by
  rintro ⟨p, q, hp, hq, -, hy⟩
  rw [hp, Option.some.injEq] at hq
  subst hq
  exact lt_irrefl _ hy

lemma Rect.pos_of_area {r : Rect} (h : 0 < r.area) : 0 < r.width ∧ 0 < r.height :=
  ⟨Nat.pos_of_mul_pos_right h, Nat.pos_of_mul_pos_left h⟩

namespace Packed

/-- A block is not empty. -/
lemma pos (h : Packed ps) {p : Placement} (hp : ps[i]? = some p) :
    0 < p.rect.width ∧ 0 < p.rect.height :=
  Rect.pos_of_area (h.area p (Array.mem_of_getElem? hp))

/-- Blocks with a common cell are the same. -/
lemma eq_of_meets (h : Packed ps) {p q : Placement} (hp : ps[i]? = some p)
    (hq : ps[j]? = some q) (hmeets : p.rect.Meets q.rect) : i = j := by
  obtain ⟨hi, rfl⟩ := Array.getElem?_eq_some_iff.mp hp
  obtain ⟨hj, rfl⟩ := Array.getElem?_eq_some_iff.mp hq
  have hapart := List.pairwise_iff_getElem.mp h.apart
  simp only [List.length_map, Array.length_toList, List.getElem_map,
    Array.getElem_toList] at hapart
  rcases lt_trichotomy i j with hlt | heq | hlt
  · exact absurd hmeets (hapart i j hi hj hlt)
  · exact heq
  · obtain ⟨a, b, hpcell, hqcell⟩ := hmeets
    exact absurd ⟨a, b, hqcell, hpcell⟩ (hapart j i hj hi hlt)

/-- One block at most lies directly on top of a block. -/
lemma eq_above (h : Packed ps) (hj : Above ps i j) (hk : Above ps i k) : j = k := by
  obtain ⟨p, q, hp, hq, hx, hwidth, hy⟩ := hj
  obtain ⟨p', r, hp', hr, hx', hwidth', hy'⟩ := hk
  rw [hp, Option.some.injEq] at hp'
  subst hp'
  have hqpos := h.pos hq
  have hrpos := h.pos hr
  refine h.eq_of_meets hq hr (Rect.meets_iff.mpr ?_)
  simp only [Rect.Has]
  omega

/-- One block at most lies directly below a block. -/
lemma eq_below (h : Packed ps) (hi : Above ps i k) (hj : Above ps j k) : i = j := by
  obtain ⟨p, r, hp, hr, hx, hwidth, hy⟩ := hi
  obtain ⟨q, r', hq, hr', hx', hwidth', hy'⟩ := hj
  rw [hr, Option.some.injEq] at hr'
  subst hr'
  have hppos := h.pos hp
  have hqpos := h.pos hq
  refine h.eq_of_meets hp hq (Rect.meets_iff.mpr ?_)
  simp only [Rect.Has]
  omega

lemma below_of_above (h : Packed ps) (hij : Above ps i j) : Below ps i j := by
  obtain ⟨p, q, hp, hq, hx, -, hy⟩ := hij
  have hpos := (h.pos hp).2
  exact ⟨p, q, hp, hq, hx.symm, by omega⟩

/-- Blocks on top of each other come from low to high. -/
lemma pairwise_below (h : Packed ps) (hc : c.IsChain (Above ps)) : c.Pairwise (Below ps) := by
  have htrans : IsTrans ℕ (Below ps) := ⟨fun _ _ _ => Below.trans⟩
  exact List.isChain_iff_pairwise.mp (hc.imp fun _ _ => h.below_of_above)

/-- The topmost of blocks on top of each other is above all others. -/
lemma eq_or_below (h : Packed ps) (hc : c.IsChain (Above ps)) (hk : k ∈ c.getLast?) (hj : j ∈ c) :
    j = k ∨ Below ps j k := by
  obtain ⟨low, rfl⟩ := List.getLast?_eq_some_iff.mp hk
  rcases List.mem_append.mp hj with hj | hj
  · exact .inr ((List.pairwise_append.mp (h.pairwise_below hc)).2.2 j hj k List.mem_cons_self)
  · exact .inl (List.mem_singleton.mp hj)

end Packed

/-- A block is found on top of another one if there is one. -/
lemma exists_above? (hwords : ∀ p ∈ ps, p.rect.InWords) (h : Above ps i j) :
    ∃ k, above? ps i = some k := by
  obtain ⟨p, q, hp, hq, hx, hwidth, hy⟩ := h
  rw [← Rect.top_eq (hwords p (Array.mem_of_getElem? hp))] at hy
  obtain ⟨hj, rfl⟩ := Array.getElem?_eq_some_iff.mp hq
  rw [above?, hp, ← Option.isSome_iff_exists]
  change (ps.findIdx? _).isSome = true
  rw [Array.findIdx?_isSome, Array.any_eq_true]
  exact ⟨j, hj, by simp [hx, hwidth, hy]⟩

/-! ### From low to high -/

/-- A block that belongs to a cascade already lies on top of another such block,
or it is above none of the blocks that are still to come. -/
def Settled (ps : Array Placement) (order : List ℕ) (taken : Array Bool) : Prop :=
  ∀ j, ¬ Free taken j → (∃ i, ¬ Free taken i ∧ Above ps i j) ∨ ∀ i ∈ order, ¬ Below ps i j

/-- A cascade has all blocks that are allowed behind its first one, or nothing
lies on top of it. -/
def Full (ps : Array Placement) (limit : ℕ) (c : List ℕ) : Prop :=
  c.length = limit + 1 ∨ ∀ k ∈ c.getLast?, above? ps k = none

/-- A climb stops for want of a block, or because it belongs to a cascade, if it
does not go as far as allowed. -/
lemma climb_stops (ps : Array Placement) (limit : ℕ) (taken : Array Bool) (i : ℕ) :
    (climb ps limit taken i).1.length = limit ∨
      ∀ k ∈ (i :: (climb ps limit taken i).1).getLast?, ∀ j, above? ps k = some j →
        ¬ Free (climb ps limit taken i).2 j := by
  induction limit generalizing taken i with
  | zero => exact .inl rfl
  | succ limit ih =>
    rw [climb]
    split
    case h_1 j habove =>
      split_ifs with hold
      · right
        rintro k hk j' hj'
        obtain rfl : i = k := by simpa using hk
        rw [habove, Option.some.injEq] at hj'
        subst hj'
        simpa [Free] using hold
      · dsimp only
        rw [List.length_cons, Nat.succ_inj, List.getLast?_cons_cons]
        exact ih (taken.setIfInBounds j true) j
    case h_2 hnone =>
      right
      rintro k hk j hj
      obtain rfl : i = k := by simpa using hk
      rw [hnone] at hj
      cases hj

/-- What comes after the first of blocks on top of each other lies on one of
them. -/
lemma exists_above_of_mem {rest : List ℕ} (hc : (i :: rest).IsChain (Above ps)) (hj : j ∈ rest) :
    ∃ k ∈ i :: rest, Above ps k j := by
  induction rest generalizing i with
  | nil => cases hj
  | cons a rest ih =>
    obtain ⟨habove, hrest⟩ := List.isChain_cons_cons.mp hc
    rcases List.mem_cons.mp hj with rfl | hj
    · exact ⟨i, List.mem_cons_self, habove⟩
    · obtain ⟨k, hk, hkj⟩ := ih hrest hj
      exact ⟨k, List.mem_cons_of_mem i hk, hkj⟩

/-- One cascade more, from the lowest block that is free. -/
lemma Settled.climb (hpacked : Packed ps) (h : Settled ps (i :: order) taken) (hi : Free taken i)
    (hlow : ∀ k ∈ order, ¬ Below ps k i) {rest : List ℕ} {taken' : Array Bool}
    (hclimb : climb ps limit (taken.setIfInBounds i true) i = (rest, taken')) :
    Full ps limit (i :: rest) ∧ Settled ps order taken' := by
  have hspec := climb_spec ps limit (taken.setIfInBounds i true) i
  have hstops := climb_stops ps limit (taken.setIfInBounds i true) i
  rw [hclimb] at hspec hstops
  obtain ⟨hfound, -, hfree, hfree'⟩ := hspec
  have hchain := hfound.stacked hpacked.words
  simp only [free_set] at hfree hfree'
  have hwasFree : ∀ k ∈ i :: rest, Free taken k :=
    List.forall_mem_cons.mpr ⟨hi, fun k hk => (hfree k hk).1⟩
  have htaken : ∀ j, ¬ Free taken' j ↔ j ∈ i :: rest ∨ ¬ Free taken j := by
    intro j
    rw [hfree', List.mem_cons]
    tauto
  refine ⟨?_, fun j hj => ?_⟩
  · refine hstops.imp (congrArg Nat.succ) fun hstop k hk => ?_
    by_contra hne
    obtain ⟨j, hj⟩ := Option.ne_none_iff_exists'.mp hne
    have hkj := above_of_above? hpacked.words hj
    have hbelow := hpacked.below_of_above hkj
    rcases (htaken j).mp (hstop k hk j hj) with hmem | hold
    · -- the cascade does not lead back into itself
      rcases hpacked.eq_or_below hchain hk hmem with rfl | hback
      · exact Below.irrefl _ hbelow
      · exact Below.irrefl _ (hbelow.trans hback)
    · rcases h j hold with ⟨k', hk', hk'j⟩ | hbehind
      · -- the block under a taken one would have been taken with it
        rw [hpacked.eq_below hk'j hkj] at hk'
        exact hk' (hwasFree k (List.mem_of_getLast? hk))
      · refine hbehind i List.mem_cons_self ?_
        rcases hpacked.eq_or_below hchain hk List.mem_cons_self with rfl | hik
        · exact hbelow
        · exact hik.trans hbelow
  · rcases (htaken j).mp hj with hmem | hold
    · rcases List.mem_cons.mp hmem with rfl | hmem
      · exact .inr hlow
      · obtain ⟨k, hk, hkj⟩ := exists_above_of_mem hchain hmem
        exact .inl ⟨k, (htaken k).mpr (.inl hk), hkj⟩
    · rcases h j hold with ⟨k, hk, hkj⟩ | hbehind
      · exact .inl ⟨k, (htaken k).mpr (.inr hk), hkj⟩
      · exact .inr (List.forall_mem_cons.mp hbehind).2

/-- Of two ways up from a block one goes on where the other one ends. -/
lemma Packed.prefix_or_prefix (hpacked : Packed ps) {c c' : List ℕ}
    (h : (i :: c).IsChain (Above ps)) (h' : (i :: c').IsChain (Above ps)) :
    c <+: c' ∨ c' <+: c := by
  induction c generalizing i c' with
  | nil => exact .inl List.nil_prefix
  | cons j c ih =>
    cases c' with
    | nil => exact .inr List.nil_prefix
    | cons k c' =>
      obtain ⟨hj, h⟩ := List.isChain_cons_cons.mp h
      obtain ⟨hk, h'⟩ := List.isChain_cons_cons.mp h'
      obtain rfl := hpacked.eq_above hj hk
      simp only [List.cons_prefix_cons, true_and]
      exact ih h h'

namespace Chained

variable {rest : List ℕ}

/-- Each member of a cascade lies on top of the one before. -/
lemma stacked (h : Chained ps maxLen heads linked) (hwords : ∀ p ∈ ps, p.rect.InWords) {head : ℕ}
    (hhead : head ∈ heads) : (members linked head).IsChain (Above ps) :=
  (h.found head hhead).stacked hwords

/-- Links upwards lead to the block on top. -/
lemma above_of_next (h : Chained ps maxLen heads linked) (hpacked : Packed ps)
    (hij : next linked i = some j) : Above ps i j := by
  have hsize := lt_size_of_next hij
  rw [h.size, ← List.mem_range, ← h.partition.mem_iff, List.mem_flatMap] at hsize
  obtain ⟨head, hhead, hi⟩ := hsize
  obtain ⟨low, high, hmembers⟩ := List.append_of_mem hi
  have hwalk := h.walk head hhead
  have hends := h.ends head hhead
  have hstacked := h.stacked hpacked.words hhead
  rw [hmembers] at hwalk hends hstacked
  cases high with
  | nil =>
    rw [hends i (by simp)] at hij
    cases hij
  | cons k high =>
    have hik := (List.isChain_cons_cons.mp (List.isChain_append.mp hwalk).2.1).1
    rw [hij, Option.some.injEq] at hik
    subst hik
    exact (List.isChain_cons_cons.mp (List.isChain_append.mp hstacked).2.1).1

/-- A block is the lowest of a cascade unless it has a link downwards. -/
lemma mem_heads_or_prev (h : Chained ps maxLen heads linked) (hj : j < ps.size) :
    j ∈ heads ∨ ∃ i, next linked i = some j := by
  rw [← h.size] at hj
  cases hprev : linked[j].prev with
  | none => exact .inl ((h.lowest j).mpr ⟨_, Array.getElem?_eq_getElem hj, hprev⟩)
  | some i =>
    refine .inr ⟨i, (h.paired i j).mpr ?_⟩
    rw [prev, Array.getElem?_eq_getElem hj]
    exact hprev

/-- A block with a link to it from below is not the lowest of a cascade. -/
lemma not_mem_heads (h : Chained ps maxLen heads linked) (hij : next linked i = some j) :
    j ∉ heads := by
  intro hj
  obtain ⟨p, hp, hprev⟩ := (h.lowest j).mp hj
  have hlink := (h.paired i j).mp hij
  rw [prev, hp] at hlink
  cases hprev.symm.trans hlink

/-- Of the members of a cascade only the first is the lowest of one. -/
lemma filter_members (h : Chained ps maxLen heads linked) {head : ℕ} (hhead : head ∈ heads) :
    (members linked head).filter (· ∈ heads) = [head] := by
  have hwalk := h.walk head hhead
  rw [members] at hwalk ⊢
  rw [List.filter_cons_of_pos (by simpa using hhead), List.filter_eq_nil_iff.mpr]
  intro j hj
  obtain ⟨i, hij⟩ : ∃ i, next linked i = some j := by
    generalize follow linked linked.size head = rest at hwalk hj
    clear hhead
    induction rest generalizing head with
    | nil => cases hj
    | cons a rest ih =>
      obtain ⟨ha, hrest⟩ := List.isChain_cons_cons.mp hwalk
      rcases List.mem_cons.mp hj with rfl | hj
      · exact ⟨head, ha⟩
      · exact ih hrest hj
  simpa using h.not_mem_heads hij

/-- What lies on top of a whole cascade begins one. -/
lemma mem_heads_of_above (h : Chained ps maxLen heads linked) (hpacked : Packed ps) {head : ℕ}
    (hhead : head ∈ heads) (hk : k ∈ (members linked head).getLast?) (hkj : Above ps k j) :
    j ∈ heads := by
  rcases h.mem_heads_or_prev hkj.lt_size.2 with hj | ⟨i, hij⟩
  · exact hj
  · have hik := hpacked.eq_below (h.above_of_next hpacked hij) hkj
    rw [hik, h.ends head hhead k hk] at hij
    cases hij

/-- Where blocks on top of each other, as many as there are, begin with the lowest
of a cascade, this cascade is the beginning of them. -/
lemma exists_append (h : Chained ps maxLen heads linked) (hpacked : Packed ps)
    (hstacked : (i :: c).IsChain (Above ps)) (htop : ∀ k ∈ (i :: c).getLast?, ∀ j, ¬ Above ps k j)
    (hi : i ∈ heads) : ∃ high, i :: c = members linked i ++ high := by
  have hmembers := h.stacked hpacked.words hi
  rw [members] at hmembers ⊢
  rcases hpacked.prefix_or_prefix hstacked hmembers with ⟨more, hmore⟩ | ⟨high, hhigh⟩
  · cases more with
    | nil => exact ⟨[], by rw [← hmore]; simp⟩
    | cons j more =>
      rw [← hmore, ← List.cons_append] at hmembers
      have hlast := List.getLast?_eq_some_getLast (List.cons_ne_nil i c)
      exact absurd ((List.isChain_append.mp hmembers).2.2 _ hlast j rfl) (htop _ hlast j)
  · exact ⟨high, by rw [← hhigh]; rfl⟩

/-- Blocks on top of each other, from the lowest of a cascade up to one on which
nothing lies, are cut into full cascades and one for the rest. -/
lemma cut (h : Chained ps maxLen heads linked) (hpacked : Packed ps) (hlen : 1 ≤ maxLen)
    (hfull : ∀ head ∈ heads, Full ps (maxLen - 1) (members linked head))
    (hstacked : c.IsChain (Above ps)) (htop : ∀ k ∈ c.getLast?, ∀ j, ¬ Above ps k j)
    (hhead : ∀ i ∈ c.head?, i ∈ heads) :
    (c.filter (· ∈ heads)).flatMap (members linked) = c ∧
      (c.filter (· ∈ heads)).length = ceilDiv c.length maxLen := by
  -- the cascades are taken off one after the other
  induction hlength : c.length using Nat.strong_induction_on generalizing c with
  | _ n ih =>
    subst hlength
    cases c with
    | nil => exact ⟨rfl, (ceilDiv_zero hlen).symm⟩
    | cons i c =>
      have hi := hhead i rfl
      obtain ⟨high, hhigh⟩ := h.exists_append hpacked hstacked htop hi
      have hlimit := h.limit i hi
      have hpos : 0 < (members linked i).length := Nat.succ_pos _
      rw [hhigh] at hstacked htop ih ⊢
      rw [List.filter_append, h.filter_members hi, List.flatMap_append, List.flatMap_singleton,
        List.length_append, List.length_append, List.length_singleton]
      cases high with
      | nil =>
        refine ⟨rfl, ?_⟩
        rw [List.length_nil, Nat.add_zero, ceilDiv_of_le hpos (by omega)]
        rfl
      | cons j high =>
        obtain ⟨-, hrest, hjoin⟩ := List.isChain_append.mp hstacked
        have hlast := List.getLast?_eq_some_getLast
          (List.cons_ne_nil i (follow linked linked.size i))
        have habove := hjoin _ hlast j rfl
        have hlength : (members linked i).length = maxLen := by
          rcases hfull i hi with hlength | hnone
          · rw [hlength, Nat.sub_add_cancel hlen]
          · obtain ⟨k, hk⟩ := exists_above? hpacked.words habove
            rw [hnone _ hlast] at hk
            cases hk
        obtain ⟨hmembers, hcount⟩ := ih (j :: high).length (by simp [hpos]) hrest
          (fun k hk => htop k (by simpa using hk))
          (fun a ha => by
            cases ha
            exact h.mem_heads_of_above hpacked hi hlast habove) rfl
        rw [hmembers, hcount, hlength, ceilDiv_add_left hlen, Nat.add_comm]
        exact ⟨rfl, rfl⟩

end Chained

end Datapath.Tiling
