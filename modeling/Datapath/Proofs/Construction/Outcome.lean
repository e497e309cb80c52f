/-
What steps of a construction come to.

* `Comes`: steps have a result with a property, or an error that is due. Steps
  in sequence come to what the last of them comes to (`Comes.bind`).
* `BuildError.Due`: the errors that parameters and delays are to blame for.
* `Builder.Orderly`: a construction at some point in time that is in order: the
  target has all its points in time, its uses are over by some cycle, and its
  instances are made of elements that are defined.
* `Builder.Has`, `Builder.MadeIn`: a signal is there by some cycle, or made in it;
  `Builder.Free`: names that are not taken.
* `Builder.Reaches`: a later state that is in order, with new names from a set.
* `Builder.Makes`, `Builder.Concludes`: such a state with a signal that one
  element makes, or that is made behind all uses; `Builder.Complete`: so is an
  output.
-/
import Datapath.Proofs.Construction.Components
import Datapath.Proofs.Construction.Elements
import Datapath.Proofs.Construction.Names
import Datapath.Proofs.Product.Elements

namespace Datapath

/-! ### Results and errors -/

section

variable {ε σ α β : Type} {E : ε → Prop} {Q Q' : α → σ → Prop}

/-- Steps have a result with a property, or an error that is due. -/
def Comes (E : ε → Prop) (Q : α → σ → Prop) : EStateM.Result ε σ α → Prop
  | .ok a s => Q a s
  | .error e _ => E e

namespace Comes

lemma pure {a : α} {s : σ} (h : Q a s) : Comes E Q ((Pure.pure a : EStateM ε σ α) s) := h

lemma throw {e : ε} {s : σ} (h : E e) : Comes E Q ((MonadExcept.throw e : EStateM ε σ α) s) := h

/-- Steps in sequence come to what the last of them comes to. -/
lemma bind {x : EStateM ε σ α} {f : α → EStateM ε σ β} {s : σ} {R : β → σ → Prop}
    (hx : Comes E Q (x s)) (hf : ∀ a s', Q a s' → Comes E R (f a s')) :
    Comes E R ((x >>= f) s) := by
  change Comes E R (EStateM.bind x f s)
  unfold EStateM.bind
  cases h : x s with
  | ok a s' =>
    rw [h] at hx
    exact hf a s' hx
  | error e s' =>
    rw [h] at hx
    exact hx

lemma imp {r : EStateM.Result ε σ α} (h : Comes E Q r)
    (himp : ∀ a s, r = .ok a s → Q a s → Q' a s) : Comes E Q' r := by
  cases r with
  | ok a s => exact himp a s rfl h
  | error e s => exact h

end Comes

/-- An error comes from the first step or from the rest. -/
lemma except_bind_eq_error {x : Except ε α} {f : α → Except ε β} {e : ε} :
    (x >>= f) = .error e ↔ x = .error e ∨ ∃ a, x = .ok a ∧ f a = .error e := by
  change Except.bind x f = _ ↔ _
  cases x <;> simp [Except.bind]

end

/-- The errors of a construction that is in order: wrong parameters, elements too
slow for the clock, chunks that a target has no size for, and faults that are
excused, such as a share of the time that outlasts the clock. -/
def BuildError.Due (t : Target) (excused : ConsistencyFault → Prop) : BuildError → Prop
  | .configuration _ | .timing .. => True
  | .invariant fault =>
    excused fault ∨ ∃ sizes sum width, fault = .chunksMissWidth sizes sum width ∧ t.chunk width = 0

/-- If an addition of some width cannot be planned because twice a chunk has more
than 32 bits, it is excused. -/
def ExcusesWide (excused : ConsistencyFault → Prop) (width : ℕ) : Prop :=
  2 ^ 31 < width → ∀ sizes sum, excused (.chunksMissWidth sizes sum width)

/-! ### Order -/

/-- A signal is there by the end of some cycle. -/
def Builder.Has (b : Builder) (id : SignalId) (n : ℕ) : Prop :=
  ∃ g, b.schedule.signal? id = some g ∧ g.cycle ≤ n

/-- A signal is made in some cycle. -/
def Builder.MadeIn (b : Builder) (id : SignalId) (n : ℕ) : Prop :=
  ∃ g, b.schedule.signal? id = some g ∧ g.cycle = n

/-- A component is defined. -/
def Builder.Defines (b : Builder) (name : String) : Prop := ∃ c ∈ b.subcomponents, c.name = name

/-- Names that are not taken. -/
def Builder.Free (b : Builder) (N : Set String) : Prop := ∀ name ∈ N, name ∉ b.schedule.names

/-- A construction at the point `p` in time that is in order: its signals are made
and its instances start at points in time of the target, its uses are over by
cycle `n`, and its instances are made of elements that are defined. -/
structure Builder.Orderly (t : Target) (n : ℕ) (p : Instant) (b : Builder) : Prop where
  period : b.schedule.period = t.period
  pipelined : b.schedule.pipelined = t.pipelined
  now : b.schedule.now = p
  admits : t.Admits p
  signals : ∀ g ∈ b.schedule.signals.items, t.Admits g.made
  usedBy : UsedBy b.events b.schedule.signals.items n
  elements : ∀ c ∈ b.subcomponents, c.IsElement t
  instances : ∀ i ∈ b.instances, b.Defines i.component ∧ i.Binds
  starts : ∀ i ∈ b.instances, t.HasCycle i.cycle

/-- A later state at the point `p` in time that is in order. The new names are
from a set. -/
structure Builder.Reaches (t : Target) (n : ℕ) (p : Instant) (N : Set String) (b b' : Builder) :
    Prop where
  orderly : b'.Orderly t n p
  later : b ≤ b'
  names : ∀ name ∈ b'.schedule.names, name ∈ b.schedule.names ∨ name ∈ N
  uids : b.nextUid ≤ b'.nextUid
  defines : ∀ name, b.Defines name → b'.Defines name

/-- A signal of some width is made from the point `p` in time on. Where nothing is
spent of the cycle it is made in this cycle. -/
def Builder.Makes (t : Target) (n : ℕ) (p : Instant) (N : Set String) (b : Builder) (width : ℕ)
    (out : SignalId) (b' : Builder) : Prop :=
  ∃ p', p.cycle ≤ p'.cycle ∧ (p.Unspent → p'.cycle = p.cycle) ∧ b'.MadeIn out p'.cycle ∧
    b'.HasWidth out width ∧ b.Reaches t n p' N b'

/-- A signal is made behind all uses. -/
def Builder.Concludes (t : Target) (N : Set String) (b : Builder) (out : SignalId) (b' : Builder) :
    Prop :=
  ∃ p', b'.Has out p'.cycle ∧ b.Reaches t p'.cycle p' N b'

/-- The construction is in order, and an output is there when all uses are over. -/
def Builder.Complete (t : Target) (b : Builder) : Prop :=
  ∃ p, b.Orderly t p.cycle p ∧
    ∃ g ∈ b.schedule.signals.items, g.kind = .output ∧ g.cycle = p.cycle

variable {t : Target} {n m : ℕ} {p p' : Instant} {N N' S : Set String} {b b' b'' : Builder}
  {id : SignalId} {excused : ConsistencyFault → Prop}

namespace Builder

lemma Has.mono (h : b.Has id n) (hle : b ≤ b') : b'.Has id n := by
  obtain ⟨g, hg, hcycle⟩ := h
  obtain ⟨g', hg', hage⟩ := hle id g hg
  exact ⟨g', hg', hage.cycle.trans_le hcycle⟩

lemma Has.of_le (h : b.Has id n) (hle : n ≤ m) : b.Has id m := by
  obtain ⟨g, hg, hcycle⟩ := h
  exact ⟨g, hg, hcycle.trans hle⟩

lemma MadeIn.mono (h : b.MadeIn id n) (hle : b ≤ b') : b'.MadeIn id n := by
  obtain ⟨g, hg, hcycle⟩ := h
  obtain ⟨g', hg', hage⟩ := hle id g hg
  exact ⟨g', hg', hage.cycle.trans hcycle⟩

lemma MadeIn.has (h : b.MadeIn id n) : b.Has id n := by
  obtain ⟨g, hg, hcycle⟩ := h
  exact ⟨g, hg, hcycle.le⟩

lemma Free.mono (h : b.Free S) (hsub : N ⊆ S) : b.Free N := fun name hname => h name (hsub hname)

/-- Of the names with numbers from `i` on, those with the number `i` are free. -/
lemma Free.first {q : List (List Char)} {words : List String} {i : ℕ}
    (h : b.Free (Below q (Numbered words (i ≤ ·)))) : b.Free (Below q (Numbered words (· = i))) :=
  h.mono (numbered_subset (List.Subset.refl _) fun _ hk => hk.ge)

lemma Orderly.of_le (h : b.Orderly t n p) (hle : n ≤ m) : b.Orderly t m p :=
  { h with
    usedBy := fun use huse =>
      have ⟨g, hg, hcycle⟩ := h.usedBy use huse
      ⟨g, hg, hcycle.trans hle⟩ }

namespace Reaches

lemma refl (h : b.Orderly t n p) : b.Reaches t n p N b :=
  ⟨h, le_refl b, fun _ hname => .inl hname, le_rfl, fun _ hdefines => hdefines⟩

lemma trans (h : b.Reaches t n p N b') (h' : b'.Reaches t m p' N b'') :
    b.Reaches t m p' N b'' where
  orderly := h'.orderly
  later := h.later.trans h'.later
  names name hname := (h'.names name hname).elim (h.names name) .inr
  uids := h.uids.trans h'.uids
  defines name hdefines := h'.defines name (h.defines name hdefines)

lemma mono (h : b.Reaches t n p N b') (hsub : N ⊆ N') : b.Reaches t n p N' b' :=
  { h with names := fun name hname => (h.names name hname).imp_right fun hmem => hsub hmem }

/-- Steps without new names may come anywhere. -/
lemma quiet (h : b.Reaches t n p ∅ b') : b.Reaches t n p N b' := h.mono (Set.empty_subset N)

lemma of_le (h : b.Reaches t n p N b') (hle : n ≤ m) : b.Reaches t m p N b' :=
  { h with orderly := h.orderly.of_le hle }

/-- New names that go on with some words, and then with others. -/
lemma append {q : List (List Char)} {words words' : List String}
    (h : b.Reaches t n p (Below q (Worded words)) b')
    (h' : b'.Reaches t m p' (Below q (Worded words')) b'') :
    b.Reaches t m p' (Below q (Worded (words ++ words'))) b'' :=
  (h.mono (worded_subset (List.subset_append_left _ _))).trans
    (h'.mono (worded_subset (List.subset_append_right _ _)))

lemma append_numbered {q : List (List Char)} {words words' : List String} {I : ℕ → Prop}
    (h : b.Reaches t n p (Below q (Numbered words I)) b')
    (h' : b'.Reaches t m p' (Below q (Numbered words' I)) b'') :
    b.Reaches t m p' (Below q (Numbered (words ++ words') I)) b'' :=
  (h.mono (numbered_subset (List.subset_append_left _ _) fun _ hi => hi)).trans
    (h'.mono (numbered_subset (List.subset_append_right _ _) fun _ hi => hi))

/-- What is made later at the same point in time is made from there on. -/
lemma makes {width : ℕ} (h : b.Reaches t n p N b') (h' : b'.Makes t n p N width id b'') :
    b.Makes t n p N width id b'' := by
  obtain ⟨q, hle, hstays, hhas, hwidth, hreaches⟩ := h'
  exact ⟨q, hle, hstays, hhas, hwidth, h.trans hreaches⟩

/-- What is made last later on is made last. -/
lemma concludes (h : b.Reaches t n p N b') (h' : b'.Concludes t N id b'') :
    b.Concludes t N id b'' := by
  obtain ⟨q, hhas, hreaches⟩ := h'
  exact ⟨q, hhas, h.trans hreaches⟩

/-- Names apart from the new ones stay free. -/
lemma free (h : b.Reaches t n p N b') (hfree : b.Free S) (hapart : Disjoint S N) : b'.Free S :=
  fun name hname htaken => (h.names name htaken).elim (hfree name hname)
    (Set.disjoint_left.mp hapart hname)

/-- Names that go on with other words than the new ones stay free. -/
lemma free_words {q : List (List Char)} {words words' all : List String}
    (h : b.Reaches t n p (Below q (Worded words)) b') (hfree : b.Free (Below q (Worded all)))
    (hall : words' ⊆ all) (hnew : ∀ w ∈ words', w ∉ words) : b'.Free (Below q (Worded words')) :=
  h.free (hfree.mono (worded_subset hall)) (worded_disjoint hnew)

lemma free_numbered {q : List (List Char)} {words words' all : List String} {I : ℕ → Prop}
    (h : b.Reaches t n p (Below q (Numbered words I)) b')
    (hfree : b.Free (Below q (Numbered all I))) (hall : words' ⊆ all)
    (hnew : ∀ w ∈ words', w ∉ words) : b'.Free (Below q (Numbered words' I)) :=
  h.free (hfree.mono (numbered_subset hall fun _ hi => hi))
    ((worded_disjoint hnew).mono numbered_subset_worded numbered_subset_worded)

/-- Once the names with the number `i` are taken, those with greater numbers are
free. -/
lemma free_rest {q : List (List Char)} {words : List String} {i : ℕ}
    (h : b.Reaches t n p (Below q (Numbered words (· = i))) b')
    (hfree : b.Free (Below q (Numbered words (i ≤ ·)))) :
    b'.Free (Below q (Numbered words (i + 1 ≤ ·))) := by
  refine h.free (hfree.mono ?_) (numbered_disjoint fun k hk => (Nat.lt_of_succ_le hk).ne')
  exact numbered_subset (List.Subset.refl _) fun k hk => (Nat.le_succ i).trans hk

/-- New names with the number `i`, and then with greater numbers. -/
lemma cons_numbered {q : List (List Char)} {words : List String} {i : ℕ}
    (h : b.Reaches t n p (Below q (Numbered words (· = i))) b')
    (h' : b'.Reaches t m p' (Below q (Numbered words (i + 1 ≤ ·))) b'') :
    b.Reaches t m p' (Below q (Numbered words (i ≤ ·))) b'' :=
  (h.mono (numbered_subset (List.Subset.refl _) fun _ hk => hk.ge)).trans
    (h'.mono (numbered_subset (List.Subset.refl _) fun _ hk => (Nat.le_succ i).trans hk))

end Reaches

lemma Concludes.mono (h : b.Concludes t N id b') (hsub : N ⊆ N') : b.Concludes t N' id b' := by
  obtain ⟨q, hhas, hreaches⟩ := h
  exact ⟨q, hhas, hreaches.mono hsub⟩

/-- A construction that has not begun is in order. -/
lemma orderly_forTarget (name : String) (t : Target) :
    (forTarget name t).Orderly t 0 ⟨0, 0.0⟩ where
  period := rfl
  pipelined := rfl
  now := rfl
  admits := Target.admits_start
  signals _ hg := absurd hg (Array.not_mem_empty _)
  usedBy _ huse := absurd huse (Array.not_mem_empty _)
  elements _ hc := absurd hc (Array.not_mem_empty _)
  instances _ hi := absurd hi (Array.not_mem_empty _)
  starts _ hi := absurd hi (Array.not_mem_empty _)

/-- Nothing is taken yet then. -/
lemma free_forTarget (name : String) (t : Target) : (forTarget name t).Free S :=
  fun _ _ => Std.HashMap.not_mem_empty

end Builder

end Datapath
