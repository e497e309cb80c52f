/-
The netlist of a run.

* `Library.Closed`: the index of a library leads to components of that name,
  which have the ports that instances of them bind, and every instance is of a
  component in the library.
* `Library.Closed.insert`: one component more whose instances are of components
  in the library keeps it closed; `Library.Closed.register`: so does an operator
  with all that it uses.
* `GeneratorCall.Makes`: what a call makes; `GeneratorCall.after_cases`: it is
  registered, or the call is reported.
* `netlist_closed`: the library of a generator is closed, whatever it was asked
  to build.
-/
import Datapath.Generator
import Datapath.Proofs.Construction.Built

namespace Datapath

variable {t : Target} {options : MultiplierOptions} {l : Library} {c : Component}
  {built : BuiltOperator}

/-! ### Libraries -/

namespace Library

/-- The netlist of a library is closed. -/
structure Closed (l : Library) : Prop where
  index : ∀ name id, l.index[name]? = some id →
    ∃ c, l.components.get? id = some c ∧ c.name = name
  offers : ∀ c ∈ l.toList, c.Offers
  instances : ∀ c ∈ l.toList, ∀ i ∈ c.instances, l.contains i.component ∧ i.Binds

lemma closed_empty : empty.Closed where
  index name id h := by simp [empty] at h
  offers c hc := by simp [empty, toList, Arena.empty] at hc
  instances c hc := by simp [empty, toList, Arena.empty] at hc

/-- A component is inserted under its name, unless the name is taken. -/
lemma insert_cases (l : Library) (c : Component) :
    (l.contains c.name ∧ (l.insert c).2 = l) ∨
      (l.insert c).2 = { l with
        components := (l.components.alloc c).2
        index := l.index.insert c.name l.components.size } := by
  rw [Library.insert]
  split
  case h_1 id hid =>
    refine .inl ⟨Std.HashMap.contains_eq_isSome_getElem?.trans ?_, rfl⟩
    rw [hid]
    rfl
  case h_2 => exact .inr rfl

lemma contains_insert {name : String} (h : l.contains name ∨ c.name = name) :
    (l.insert c).2.contains name := by
  obtain ⟨hold, heq⟩ | heq := l.insert_cases c
  · rw [heq]
    exact h.elim id fun hname => hname ▸ hold
  · rw [heq]
    refine Std.HashMap.contains_insert.trans ?_
    rw [Bool.or_eq_true, beq_iff_eq]
    exact h.symm

/-- What holds of all components holds with one more of which it holds. -/
lemma forall_insert {P : Component → Prop} (hl : ∀ c ∈ l.toList, P c) (hc : P c) :
    ∀ c' ∈ (l.insert c).2.toList, P c' := by
  obtain ⟨-, heq⟩ | heq := l.insert_cases c
  · rwa [heq]
  · have hlist : (l.insert c).2.toList = l.toList ++ [c] := by
      rw [heq]
      exact Array.toList_push
    rw [hlist]
    exact List.forall_mem_append.mpr ⟨hl, List.forall_mem_singleton.mpr hc⟩

/-- One component more keeps the netlist closed. -/
lemma Closed.insert (hl : l.Closed) (hoffers : c.Offers)
    (hinstances : ∀ i ∈ c.instances, l.contains i.component ∧ i.Binds) :
    (l.insert c).2.Closed where
  index name id hid := by
    obtain ⟨-, heq⟩ | heq := l.insert_cases c
    · rw [heq] at hid ⊢
      exact hl.index name id hid
    · rw [heq] at hid ⊢
      replace hid : (l.index.insert c.name l.components.size)[name]? = some id := hid
      rw [Std.HashMap.getElem?_insert] at hid
      split_ifs at hid with hname
      · cases hid
        exact ⟨c, Arena.get?_alloc_self _ _, eq_of_beq hname⟩
      · obtain ⟨c', hc', hname'⟩ := hl.index name id hid
        have hlt : id < l.components.size := (Array.getElem?_eq_some_iff.mp hc').1
        exact ⟨c', (Arena.get?_alloc_of_lt _ _ hlt).trans hc', hname'⟩
  offers := forall_insert hl.offers hoffers
  instances c' hc' i hi := by
    have hold := forall_insert hl.instances hinstances c' hc' i hi
    exact ⟨contains_insert (.inl hold.1), hold.2⟩

/-- So do several components without instances. -/
lemma Closed.insertAll {cs : List Component} (hl : l.Closed)
    (hcs : ∀ c ∈ cs, c.Offers ∧ c.instances = #[]) :
    (cs.foldl (fun l c => (l.insert c).2) l).Closed := by
  induction cs generalizing l with
  | nil => exact hl
  | cons c cs ih =>
    obtain ⟨⟨hoffers, hleaf⟩, hcs⟩ := List.forall_mem_cons.mp hcs
    exact ih (hl.insert hoffers (by simp [hleaf])) hcs

/-- All of them are in the library then, or others under their names. -/
lemma contains_insertAll {cs : List Component} {name : String}
    (h : l.contains name ∨ ∃ c ∈ cs, c.name = name) :
    (cs.foldl (fun l c => (l.insert c).2) l).contains name := by
  induction cs generalizing l with
  | nil => exact h.elim id (by simp)
  | cons c cs ih =>
    rw [List.exists_mem_cons_iff, ← or_assoc] at h
    exact ih (h.imp_left contains_insert)

/-- An operator keeps the netlist closed. It is registered behind all that it
uses. -/
lemma Closed.register (hl : l.Closed) (h : Builds t built) : (l.register built).2.Closed := by
  obtain ⟨b, ⟨p, hb, -⟩, -, hname, rfl⟩ := h.complete
  have helements : ∀ c ∈ b.finish.subcomponents.toList, c.Offers ∧ c.instances = #[] :=
    fun c hc => ⟨(hb.elements c (Array.mem_toList_iff.mp hc)).offers,
      (hb.elements c (Array.mem_toList_iff.mp hc)).leaf⟩
  have hclosed := hl.insertAll helements
  have hnames : ∀ name, (∃ c ∈ b.finish.subcomponents.toList, c.name = name) →
      (b.finish.subcomponents.toList.foldl (fun l c => (l.insert c).2) l).contains name :=
    fun _ h => contains_insertAll (.inr h)
  rw [Library.register, ← Array.foldl_toList]
  generalize b.finish.subcomponents.toList.foldl (fun l c => (l.insert c).2) l = l' at *
  have hlogged : ({ l' with log := l'.log.extend b.finish.diagnostics.toList } : Library).Closed :=
    ⟨hclosed.index, hclosed.offers, hclosed.instances⟩
  refine hlogged.insert (fun formal hformal => ?_) fun i hi => ?_
  · change formal ∈ formals b.name at hformal
    rw [hname] at hformal
    cases hformal
  · obtain ⟨⟨c, hc, hcname⟩, hbinds⟩ := hb.instances i hi
    exact ⟨hnames _ ⟨c, Array.mem_toList_iff.mpr hc, hcname⟩, hbinds⟩

/-- A component that is found is in the library, under its name. -/
lemma Closed.get?_eq_some {name : String} (hl : l.Closed) (h : l.get? name = some c) :
    c ∈ l.toList ∧ c.name = name := by
  obtain ⟨id, hid, hc⟩ := Option.bind_eq_some_iff.mp h
  obtain ⟨c', hc', hname⟩ := hl.index name id hid
  obtain rfl : c' = c := Option.some.inj (hc'.symm.trans hc)
  exact ⟨Array.mem_toList_iff.mpr (Array.mem_of_getElem? hc'), hname⟩

/-- For every name in the index there is a component. -/
lemma Closed.exists_get? {name : String} (hl : l.Closed) (h : l.contains name) :
    ∃ c, l.get? name = some c := by
  obtain ⟨id, hid⟩ := Option.isSome_iff_exists.mp
    (Std.HashMap.contains_eq_isSome_getElem?.symm.trans h)
  obtain ⟨c, hc, -⟩ := hl.index name id hid
  exact ⟨c, Option.bind_eq_some_iff.mpr ⟨id, hid, hc⟩⟩

/-- In a closed netlist every instance is of a component in the library that has
the ports that the instance binds. -/
lemma Closed.component (hl : l.Closed) {i : Instance} (hc : c ∈ l.toList) (hi : i ∈ c.instances) :
    ∃ c', l.get? i.component = some c' ∧ c'.name = i.component ∧
      ∀ p ∈ i.ports, (c'.port? p.formal).isSome := by
  obtain ⟨hcontains, hbinds⟩ := hl.instances c hc i hi
  obtain ⟨c', hc'⟩ := hl.exists_get? hcontains
  obtain ⟨hmem, hname⟩ := hl.get?_eq_some hc'
  refine ⟨c', hc', hname, fun p hp => hl.offers c' hmem _ ?_⟩
  rw [hname]
  exact hbinds p hp

end Library

/-! ### Generators -/

/-- The generator after some steps, whether they failed or not. -/
def Generating.after {α : Type} (steps : Generating α) (g : Generator) : Generator :=
  match steps g with
  | .ok _ g => g
  | .error _ g => g

/-- What a generator can be asked to build. -/
inductive GeneratorCall where
  | adder (width : ℕ)
  | multiplier (wx wy wOut : ℕ) (signed : Bool)
  | shifter (wIn maxShift : ℕ) (direction : ShiftDirection)

/-- The generator after a call. -/
def GeneratorCall.after [Tiling.Surroundings] (g : Generator) : GeneratorCall → Generator
  | adder width => Generating.after (Generator.adder width) g
  | multiplier wx wy wOut signed => Generating.after (Generator.multiplier wx wy wOut signed) g
  | shifter wIn maxShift direction =>
    Generating.after (Generator.shifter wIn maxShift direction) g

/-- The generator after a call in surroundings of its own. -/
def GeneratorCall.afterIn (g : Generator) (call : Tiling.Surroundings × GeneratorCall) :
    Generator :=
  letI := call.1
  call.2.after g

/-- What a call makes for a target under some options. -/
inductive GeneratorCall.Makes [Tiling.Surroundings] (t : Target) (options : MultiplierOptions) :
    GeneratorCall → BuiltOperator → Prop
  | adder {width : ℕ} {a : LongAdder} {built : BuiltOperator}
    (h : LongAdder.build t width = .ok (a, built)) : Makes t options (.adder width) built
  | multiplier {wx wy wOut : ℕ} {signed : Bool} {m : Multiplier} {built : BuiltOperator}
    (h : Multiplier.build t wx wy wOut signed options = .ok (m, built)) :
    Makes t options (.multiplier wx wy wOut signed) built
  | shifter {wIn maxShift : ℕ} {direction : ShiftDirection} {s : Shifter} {built : BuiltOperator}
    (h : Shifter.build t wIn maxShift direction = .ok (s, built)) :
    Makes t options (.shifter wIn maxShift direction) built

lemma GeneratorCall.Makes.builds [Tiling.Surroundings] {call : GeneratorCall}
    (h : call.Makes t options built) : Builds t built := by
  cases h with
  | adder h => exact .adder h
  | multiplier h => exact .multiplier h
  | shifter h => exact .shifter h

namespace Generator

variable {g : Generator}

/-- What was built is registered, and what could not be built is reported. -/
lemma after_register {α : Type} {operator : String} {steps : Generating α}
    {r : Except BuildError (α × BuiltOperator)} (hsteps : steps g = register operator r g) :
    (∃ a built, r = .ok (a, built) ∧
        Generating.after steps g = { g with library := (g.library.register built).2 }) ∨
      ∃ e, r = .error e ∧
        Generating.after steps g = { g with library := g.library.reportFailure operator e } := by
  unfold Generating.after
  rw [hsteps]
  cases r with
  | ok r => exact .inl ⟨r.1, r.2, rfl, rfl⟩
  | error e => exact .inr ⟨e, rfl, rfl⟩

end Generator

namespace GeneratorCall

variable {call : GeneratorCall} {built' : BuiltOperator} {g : Generator}

/-- What a call makes follows from the target and the options. -/
lemma Makes.unique [Tiling.Surroundings] (h : call.Makes t options built)
    (h' : call.Makes t options built') : built = built' := by
  cases h with
  | adder h | multiplier h | shifter h =>
    cases h' with
    | _ h' => exact congrArg Prod.snd (Except.ok.inj (h.symm.trans h'))

/-- What a call makes is registered. If it makes nothing then it is reported. -/
lemma after_cases [Tiling.Surroundings] (call : GeneratorCall) (g : Generator) :
    (∃ built, call.Makes g.target g.options built ∧
        call.after g = { g with library := (g.library.register built).2 }) ∨
      (∀ built, ¬ call.Makes g.target g.options built) ∧
        ∃ operator e, call.after g = { g with library := g.library.reportFailure operator e } := by
  cases call with
  | adder width =>
    have hsteps : Generator.adder width g =
        Generator.register s!"LongIntAdder_{width}" (LongAdder.build g.target width) g := rfl
    obtain ⟨_, built, h, hafter⟩ | ⟨e, h, hafter⟩ := Generator.after_register hsteps
    · exact .inl ⟨built, .adder h, hafter⟩
    · refine .inr ⟨fun _ hmakes => ?_, _, e, hafter⟩
      cases hmakes with
      | adder h' => cases h.symm.trans h'
  | multiplier wx wy wOut signed =>
    have hsteps : Generator.multiplier wx wy wOut signed g =
        Generator.register s!"IntMultiplier_{wx}_{wy}_{wOut}"
          (Multiplier.build g.target wx wy wOut signed g.options) g := rfl
    obtain ⟨_, built, h, hafter⟩ | ⟨e, h, hafter⟩ := Generator.after_register hsteps
    · exact .inl ⟨built, .multiplier h, hafter⟩
    · refine .inr ⟨fun _ hmakes => ?_, _, e, hafter⟩
      cases hmakes with
      | multiplier h' => cases h.symm.trans h'
  | shifter wIn maxShift direction =>
    have hsteps : Generator.shifter wIn maxShift direction g =
        Generator.register ({ wIn, maxShift, direction } : Shifter).name
          (Shifter.build g.target wIn maxShift direction) g := rfl
    obtain ⟨_, built, h, hafter⟩ | ⟨e, h, hafter⟩ := Generator.after_register hsteps
    · exact .inl ⟨built, .shifter h, hafter⟩
    · refine .inr ⟨fun _ hmakes => ?_, _, e, hafter⟩
      cases hmakes with
      | shifter h' => cases h.symm.trans h'

/-- A call keeps the netlist closed. -/
lemma closed_after [Tiling.Surroundings] (hg : g.library.Closed) (call : GeneratorCall) :
    (call.after g).library.Closed := by
  obtain ⟨built, hbuilt, hafter⟩ | ⟨-, operator, e, hafter⟩ := after_cases call g
  · rw [hafter]
    exact hg.register hbuilt.builds
  · rw [hafter]
    exact ⟨hg.index, hg.offers, hg.instances⟩

end GeneratorCall

/-- **The netlist of a run is closed.** Whatever a generator is asked to build,
in whatever surroundings tilings are searched for each time, and whether it can
or not, every instance of every component in its library is of a component in its
library, which has every port that the instance binds. -/
theorem netlist_closed (t : Target) (options : MultiplierOptions)
    (calls : List (Tiling.Surroundings × GeneratorCall)) :
    let l := (calls.foldl GeneratorCall.afterIn (Generator.start t options)).library
    ∀ c ∈ l.toList, ∀ i ∈ c.instances, ∃ c', l.get? i.component = some c' ∧
      c'.name = i.component ∧ ∀ p ∈ i.ports, (c'.port? p.formal).isSome := by
  have hclosed : ∀ g : Generator, g.library.Closed →
      (calls.foldl GeneratorCall.afterIn g).library.Closed := by
    induction calls with
    | nil => exact fun g hg => hg
    | cons call calls ih =>
      let _ := call.1
      exact fun g hg => ih _ (GeneratorCall.closed_after hg call.2)
  intro l c hc i hi
  exact (hclosed _ Library.closed_empty).component hc hi

open Runs in
/-- A small adder has an instance, and it is in a library behind the element that
it uses. -/
lemma LongAdder.build_uses :
    ∃ a built i, LongAdder.build unclocked 3 = .ok (a, built) ∧
      i ∈ built.component.instances ∧
        built.component ∈ (Library.empty.register built).2.toList := by
  have hplan : ChunkPlan.make unclocked 3 unclocked.period =
      .ok ⟨3, layChunks 0 [3], .single, 0, 0⟩ := rfl
  have hpipelined : unclocked.pipelined = false := rfl
  have hzero : Nat.repr 0 = "0" := rfl
  obtain ⟨a, built, i, hbuild, hi, huses, hname⟩ :
      ∃ a built i, LongAdder.build unclocked 3 = .ok (a, built) ∧
        i ∈ built.component.instances ∧ built.subcomponents = #[rippleComponent 3] ∧
          built.component.name = nameOf 3 := by
    simp [LongAdder.build, LongAdder.steps, carrySelect, awaitOperands, Addition.ripple,
      CarryIn.bind, hplan, hpipelined, hzero, Builder.finish, Builder.finishWith]
  have hne : (rippleComponent 3).name ≠ nameOf 3 := by decide
  refine ⟨a, built, i, hbuild, hi, ?_⟩
  simp [Library.register, Library.insert, Library.empty, Library.toList, huses, hname, hne]

theorem netlist_closed_twoCalls :
    let l := ([(.standard, .adder 3), (.standard, .adder 0)].foldl GeneratorCall.afterIn
      (Generator.start unclocked .standard)).library
    ∃ c ∈ l.toList, ∃ i ∈ c.instances, ∃ c', l.get? i.component = some c' ∧
      c'.name = i.component ∧ ∀ p ∈ i.ports, (c'.port? p.formal).isSome := by
  obtain ⟨a, built, i, hbuild, hi, hmem⟩ := LongAdder.build_uses
  have hsteps : Generator.adder 3 (Generator.start unclocked .standard) =
      Generator.register s!"LongIntAdder_{3}" (LongAdder.build unclocked 3)
        (Generator.start unclocked .standard) := rfl
  have hfirst : GeneratorCall.afterIn (Generator.start unclocked .standard) (.standard, .adder 3) =
      { Generator.start unclocked .standard with library := (Library.empty.register built).2 } := by
    change Generating.after (Generator.adder 3) _ = _
    rw [Generating.after, hsteps, hbuild]
    rfl
  -- the second call fails and leaves the components alone
  have hlast : built.component ∈ ([(.standard, .adder 3), (.standard, .adder 0)].foldl
      GeneratorCall.afterIn (Generator.start unclocked .standard)).library.toList := by
    rw [List.foldl_cons, hfirst]
    exact hmem
  exact ⟨built.component, hlast, i, hi, netlist_closed unclocked .standard _ _ hlast i hi⟩

end Datapath
