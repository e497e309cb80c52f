/-
Compressors read what is there before them.

* `Wired`: every compressor reads known signals and outputs of compressors
  before it, and its own output is new. `grown` is what is known after them.
* `drive`: an assignment with the outputs of wired compressors, which leaves
  known signals as they are (`drive_eq`); `runCompressors_eq` computes it.
-/
import Datapath.Proofs.BitHeap.Reduction
import Datapath.Proofs.Steps
import Mathlib.Data.Set.Insert
import Mathlib.Logic.Function.Basic

namespace Datapath

variable {A : Set SignalId} {nodes nodes' : List Compressor} {v : Assignment}

/-! ### Wired compressors -/

/-- Some signals and the outputs of compressors. -/
def grown (A : Set SignalId) (nodes : List Compressor) : Set SignalId :=
  {id | id ∈ A ∨ ∃ node ∈ nodes, node.output = id}

lemma subset_grown : A ⊆ grown A nodes := fun _ h => .inl h

lemma output_mem_grown {node : Compressor} (h : node ∈ nodes) : node.output ∈ grown A nodes :=
  .inr ⟨node, h, rfl⟩

lemma grown_nil : grown A [] = A := by
  ext id
  simp [grown]

lemma grown_cons (node : Compressor) :
    grown A (node :: nodes) = grown (insert node.output A) nodes := by
  ext id
  simp only [grown, Set.mem_ofPred_eq, Set.mem_insert_iff, List.exists_mem_cons_iff,
    eq_comm (a := node.output)]
  tauto

lemma grown_append : grown A (nodes ++ nodes') = grown (grown A nodes) nodes' := by
  ext id
  simp only [grown, Set.mem_ofPred_eq, List.mem_append, or_and_right, exists_or, or_assoc]

/-- Every compressor reads signals of `A` and outputs of compressors before it,
and its output is neither. -/
def Wired (A : Set SignalId) : List Compressor → Prop
  | [] => True
  | node :: nodes =>
    (∀ s ∈ node.inputs, s.On (· ∈ A)) ∧ node.output ∉ A ∧ Wired (insert node.output A) nodes

lemma wired_append : Wired A (nodes ++ nodes') ↔ Wired A nodes ∧ Wired (grown A nodes) nodes' := by
  induction nodes generalizing A with
  | nil => simp [Wired, grown_nil]
  | cons node nodes ih => rw [List.cons_append, Wired, Wired, ih, grown_cons, and_assoc, and_assoc]

/-! ### The outputs of compressors -/

/-- The assignment that differs in the outputs of compressors, which count
their inputs. -/
def drive (v : Assignment) : List Compressor → Assignment
  | [] => v
  | node :: nodes => drive (Function.update v node.output (node.inputs.map (·.eval v)).sum) nodes

/-- A driven assignment is consistent with the compressors and leaves the
signals before them as they are. -/
lemma drive_eq (hwired : Wired A nodes) (v : Assignment) :
    (∀ id ∈ A, drive v nodes id = v id) ∧ Consistent (drive v nodes) nodes := by
  induction nodes generalizing A v with
  | nil => exact ⟨fun _ _ => rfl, fun _ h => absurd h List.not_mem_nil⟩
  | cons node nodes ih =>
    obtain ⟨hinputs, hnew, hrest⟩ := hwired
    obtain ⟨hkept, hconsistent⟩ := ih hrest
      (Function.update v node.output (node.inputs.map (·.eval v)).sum)
    have hold : ∀ id ∈ A, drive v (node :: nodes) id = v id := by
      intro id hid
      have hne : id ≠ node.output := fun h => hnew (h ▸ hid)
      rw [drive, hkept id (Set.mem_insert_of_mem _ hid), Function.update_of_ne hne]
    refine ⟨hold, List.forall_mem_cons.mpr ⟨?_, hconsistent⟩⟩
    rw [drive, hkept _ (Set.mem_insert _ _), Function.update_self, ← drive]
    exact congrArg List.sum (List.map_congr_left fun s hs =>
      BitSource.eval_congr ((hinputs s hs).mono fun id hid => (hold id hid).symm))

/-- Sources count what they are worth. -/
lemma countSources_eq {values : Valuation} {sources : List BitSource}
    (h : ∀ s ∈ sources, s.On (values.Gives v)) :
    countSources values sources = .ok (sources.map (·.eval v)).sum := by
  induction sources with
  | nil => rfl
  | cons s sources ih =>
    obtain ⟨hs, hsources⟩ := List.forall_mem_cons.mp h
    rw [countSources, BitSource.value_eq hs, ih hsources]
    rfl

/-- Computing the outputs of wired compressors yields the driven assignment. -/
lemma runCompressors_eq {values : Valuation} {computed : Std.HashMap SignalId ℕ}
    (hwired : Wired A nodes) (hA : ∀ id ∈ A, (overlay computed values).Gives v id) :
    ∃ computed', runCompressors values computed nodes = .ok computed' ∧
      ∀ id ∈ grown A nodes, (overlay computed' values).Gives (drive v nodes) id := by
  induction nodes generalizing A v computed with
  | nil =>
    refine ⟨computed, rfl, fun id hid => ?_⟩
    rw [grown_nil] at hid
    exact hA id hid
  | cons node nodes ih =>
    obtain ⟨hinputs, hnew, hrest⟩ := hwired
    have hcount := countSources_eq fun s hs => (hinputs s hs).mono hA
    rw [runCompressors, hcount, grown_cons]
    refine ih hrest ?_
    intro id hid
    rw [Valuation.Gives, overlay, Std.HashMap.getElem?_insert, Function.update_apply]
    rcases Set.mem_insert_iff.mp hid with rfl | hid
    · simp
    · have hne : id ≠ node.output := fun h => hnew (h ▸ hid)
      rw [if_neg (by simpa using hne.symm), if_neg hne]
      exact hA id hid

end Datapath
