/-
Elements of products keep a construction in order.

* `ProductTable.isElement_of_component`: tables are elements.
* `ProductTable.component_of_tooSlow`, `ProductTable.exists_component`: a table can be
  built unless it alone takes longer than a clock period.
* `placeBlock_comes`, `placeTable_comes`, `placePostAdder_comes`: what each
  element comes to.
-/
import Datapath.Proofs.Construction.Primitives
import Datapath.Proofs.Runs

namespace Datapath

open Build

variable {t : Target} {n : ℕ} {p : Instant} {b b' : Builder} {excused : ConsistencyFault → Prop}
  {label tag : String} {N : Set String}

/-! ### Tables -/

namespace ProductTable

variable {table : ProductTable} {c : Component}

lemma formals_name (table : ProductTable) : formals table.name = ["X"] := by
  unfold name
  generalize name.sign table.signedX = signX
  generalize name.sign table.signedY = signY
  simp [formals, toString]

/-- Only parameters are to blame where there is no table. -/
lemma due_of_make {dx dy wOut : ℕ} {signedX signedY : Bool} {e : BuildError}
    (h : make dx dy wOut signedX signedY = .error e) : e.Due t excused := by
  simp only [make] at h
  split_ifs at h <;> cases h <;> trivial

/-- The construction of a table is complete, unless an element is too slow. -/
lemma build_comes (table : ProductTable) :
    Comes (BuildError.Due t excused) (fun _ b' => b'.Complete t)
      (table.build t (.forTarget table.name t)) := by
  have hfree : (Builder.forTarget table.name t).Free {"X", "Y"} := Builder.free_forTarget _ _
  refine (addInput_comes (N := {"X"}) (Builder.orderly_forTarget table.name t) rfl
    (hfree.mono (by simp))).bind ?_
  rintro x b₁ ⟨hx, -, -, h₁⟩
  refine (advance_comes h₁.orderly).bind ?_
  rintro _ b₂ ⟨p', -, -, h₂⟩
  have hx := hx.mono h₂.later
  have h₂ := h₁.trans h₂.quiet
  refine (addOutput_comes (N := {"Y"}) h₂.orderly (Nat.zero_le _) hx rfl
    (h₂.free (hfree.mono (by simp)) (by simp))).bind fun y b₃ hcomplete => .pure hcomplete

lemma build_run (lateName : String → Prop) : Leads (Builder.Run lateName) (table.build t) :=
  (addInput_run _ _).bind fun _ => (advance_run _ _).bind fun _ =>
    (addOutput_run _ _ _).bind fun _ => .pure _

lemma due_of_component {e : BuildError} (h : table.component t = .error e) : e.Due t excused := by
  have hcomes := @build_comes t excused table
  rw [component] at h
  split at h <;> cases h
  case h_1 hbuild =>
    rw [hbuild] at hcomes
    exact hcomes

/-- A table has the input that instances bind, and no instances. -/
lemma build_ports {b : Builder} (h : table.build t (.forTarget table.name t) = .ok () b) :
    b.name = table.name ∧ b.instances = #[] ∧ ⟨"X", table.inputWidth, .input, 0⟩ ∈ b.ports := by
  obtain ⟨x, b₁, hx, hrest⟩ := bind_eq_ok.mp h
  have hbehind : Builder.Run (fun _ => True) b₁ b :=
    (advance_run _ _).bind (fun _ => (addOutput_run _ _ _).bind fun _ => .pure _) hrest
  have hsame : Leads Builder.SameInstances (table.build t) :=
    (sameInstances_addInput _ _).bind fun _ => (sameInstances_advance _ _).bind fun _ =>
      (sameInstances_addOutput _ _ _).bind fun _ => .pure _
  exact ⟨(build_run (fun _ => True) h).extends.name, (hsame h).instances,
    hbehind.extends.ports _ (mem_ports_of_addInput hx)⟩

/-- Tables are elements. -/
lemma isElement_of_component (h : table.component t = .ok c) :
    c.IsElement t ∧ c.name = table.name := by
  have hpart : c.IsPart t := .table h
  have hcomes := @build_comes t (fun _ => False) table
  rw [component] at h
  split at h <;> cases h
  case h_2 b hbuild =>
    rw [hbuild] at hcomes
    have hreplays := (build_run (fun _ => True) hbuild).replays (Builder.replays_forTarget _ _)
    obtain ⟨hname, hinstances, hport⟩ := build_ports hbuild
    refine ⟨⟨hpart, hcomes.causal hreplays, hcomes.timed, hcomes.combinational hreplays, ?_,
      hinstances⟩, hname⟩
    intro formal hformal
    change formal ∈ formals b.name at hformal
    rw [hname, formals_name, List.mem_singleton] at hformal
    exact Array.find?_isSome.mpr ⟨_, hport, by simp [hformal]⟩

/-- The table alone takes longer than a clock period. -/
def TooSlow (table : ProductTable) (t : Target) : Prop :=
  t.pipelined = true ∧ (table.delay t 1).seconds > t.period

open Runs in
/-- Every other table can be built, with a register in front of it or without. -/
lemma exists_component (h : ¬ table.TooSlow t) : ∃ c, table.component t = .ok c := by
  cases hpipelined : t.pipelined with
  | false => simp [component, build, hpipelined]
  | true =>
    have hfits : ¬ (table.delay t 1).seconds > t.period := fun hlong => h ⟨hpipelined, hlong⟩
    by_cases hlate : ((0.0 : Delay) + table.delay t 1).seconds > t.period <;>
      simp [component, build, hpipelined, hfits, hlate]

end ProductTable

/-! ### Elements -/

lemma formals_blockName (wx wy : ℕ) : formals (blockName wx wy) = ["X", "Y"] := by
  simp [formals, blockName, toString]

lemma formals_postAdderName (width : ℕ) : formals (postAdderName width) = ["PCIN", "P"] := by
  simp [formals, postAdderName, toString]

lemma postAdderComponent_isElement (width : ℕ) : (postAdderComponent width).IsElement t :=
  Component.primitive_isElement (.postAdder width) (by simp [formals_postAdderName])

/-- A block makes a product. -/
lemma placeBlock_comes {x y : SignalId} {wx wy : ℕ} (hb : b.Orderly t n p) (hn : p.cycle ≤ n)
    (hx : b.Has x p.cycle) (hy : b.Has y p.cycle) (hwx : b.HasWidth x wx) (hwy : b.HasWidth y wy)
    (hfree : b.Free (Below (path label) (Worded ["R"]))) :
    Comes (BuildError.Due t excused) (b.Makes t n p (Below (path label) (Worded ["R"])) (wx + wy))
      (placeBlock t x y label b) := by
  refine signal_bind hwx fun gx hgx => signal_bind hwy fun gy hgy => ?_
  rw [hgx, hgy]
  have helement : (blockComponent wx wy).IsElement t :=
    Component.primitive_isElement (.block wx wy) (by simp [formals_blockName])
  refine (addSubcomponent_comes hb helement).bind ?_
  rintro _ b₁ ⟨hdefines, h₁⟩
  refine (read_comes h₁.orderly (hx.mono h₁.later) hn).bind fun xUse b₂ h₂ => ?_
  have hdefines := h₂.defines _ hdefines
  have h₂ := h₁.trans h₂
  refine (read_comes h₂.orderly (hy.mono h₂.later) hn).bind fun yUse b₃ h₃ => ?_
  have hdefines := h₃.defines _ hdefines
  have h₃ := h₂.trans h₃
  have hports : ∀ q ∈ [PortBinding.signal "X" xUse, .signal "Y" yUse],
      q.formal ∈ formals (blockName wx wy) := by simp [formals_blockName]
  refine (element_comes (N := Below (path label) (Worded ["R"])) h₃.orderly hdefines hports
    (mem_worded (by decide))
    (h₃.free hfree (Set.disjoint_empty _))).imp fun _ _ _ => h₃.quiet.makes

/-- A table makes its entry. -/
lemma placeTable_comes {x y : SignalId} {table : ProductTable} (hb : b.Orderly t n p)
    (hn : p.cycle ≤ n) (hx : b.Has x p.cycle) (hy : b.Has y p.cycle)
    (hfree : b.Free (Below (path label) (Worded ["XY", "RR"]))) :
    Comes (BuildError.Due t excused)
      (b.Makes t n p (Below (path label) (Worded ["XY", "RR"])) table.wOut)
      (placeTable t x y table label b) := by
  refine (read_comes hb hx hn).bind fun _ b₁ h₁ => ?_
  refine (read_comes h₁.orderly (hy.mono h₁.later) hn).bind fun _ b₂ h₂ => ?_
  have h₂ := h₁.trans h₂
  refine (declare_comes (N := Below (path label) (Worded ["XY"])) h₂.orderly
    (mem_worded (by decide))
    (h₂.free (hfree.mono (worded_subset (by decide))) (Set.disjoint_empty _))).bind ?_
  rintro xy b₃ ⟨hxy, -, h₃⟩
  have h₃ := h₂.quiet.trans h₃
  refine ofExcept_bind (fun e he => ProductTable.due_of_component he) fun c hc => ?_
  obtain ⟨helement, hname⟩ := ProductTable.isElement_of_component hc
  refine (addSubcomponent_comes h₃.orderly helement).bind ?_
  rintro _ b₄ ⟨hdefines, h₄⟩
  rw [hname] at hdefines
  have hxy := (hxy.mono h₄.later).has
  have h₄ := h₃.trans h₄.quiet
  refine (read_comes h₄.orderly hxy hn).bind fun use b₅ h₅ => ?_
  have hdefines := h₅.defines _ hdefines
  have h₅ := h₄.trans h₅.quiet
  have hports : ∀ q ∈ [PortBinding.signal "X" use], q.formal ∈ formals table.name := by
    simp [ProductTable.formals_name]
  refine (element_comes (N := Below (path label) (Worded ["RR"])) h₅.orderly hdefines hports
    (mem_worded (by decide))
    (h₅.free_words hfree (by decide) (by decide))).imp ?_
  rintro out b₆ - ⟨p', hle, hstays, hout, hwidth, h₆⟩
  exact ⟨p', hle, hstays, hout, hwidth, h₅.append h₆⟩

/-- The adder of a block makes a sum, if it is defined. -/
lemma placePostAdder_comes {sum product : SignalId} {width : ℕ} (hb : b.Orderly t n p)
    (hn : p.cycle ≤ n) (hsum : b.Has sum p.cycle) (hproduct : b.Has product p.cycle)
    (hdefines : b.Defines (postAdderName width)) (hlabel : label ∈ N) (hfree : b.Free N) :
    Comes (BuildError.Due t excused) (b.Makes t n p N width)
      (placePostAdder t sum product width label b) := by
  refine (read_comes hb hsum hn).bind fun sumUse b₁ h₁ => ?_
  refine (read_comes h₁.orderly (hproduct.mono h₁.later) hn).bind fun productUse b₂ h₂ => ?_
  have hdefines := h₂.defines _ (h₁.defines _ hdefines)
  have h₂ := h₁.trans h₂
  have hports : ∀ q ∈ [PortBinding.signal "PCIN" sumUse, .signal "P" productUse],
      q.formal ∈ formals (postAdderName width) := by simp [formals_postAdderName]
  exact (element_comes h₂.orderly hdefines hports hlabel
    (h₂.free hfree (Set.disjoint_empty _))).imp fun _ _ _ => h₂.quiet.makes

end Datapath
