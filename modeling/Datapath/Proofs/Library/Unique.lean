/-
The name of a component tells all of it.

* `path_rippleComponent`, `path_blockComponent`, …: the parts of the names of
  components.
* `Component.IsPart.eq_of_name`, `Component.Made.eq_of_name`: of the components
  that are made for a target, no two different ones have the same name.
* `Generator.Sound`: whatever is in the library was made for the target of the
  generator under its options.
* `component_of_name`: so a component that is dropped, because there is one of
  its name, is equal to that one.
-/
import Datapath.Proofs.Construction.Combinational
import Datapath.Proofs.Library.Closure

namespace Datapath

variable {t : Target} {options : MultiplierOptions} {c c' : Component} {built : BuiltOperator}

/-! ### Names -/

@[simp] lemma path_rippleComponent (width : ℕ) :
    path (rippleComponent width).name = ["IntAdder".toList, digits width] := by
  simp [path, rippleComponent, Component.primitive, rippleName, toString, cut]

@[simp] lemma path_compressor (inputs : ℕ) (ins outs : List (String × ℕ)) :
    path (Component.primitive (compressorName inputs) ins outs).name =
      ["Compressor".toList, digits inputs, "2".toList] := by
  simp [path, Component.primitive, compressorName, toString, cut]

@[simp] lemma path_postAdderComponent (width : ℕ) :
    path (postAdderComponent width).name = ["DSPPostAdder".toList, digits width] := by
  simp [path, postAdderComponent, Component.primitive, postAdderName, toString, cut]

lemma not_mem_digits {n : ℕ} {letter : Char} (h : letter.isDigit = false) :
    letter ∉ digits n := by
  intro hmem
  rw [isDigit_of_mem_digits hmem] at h
  cases h

/-- Both widths of a block are in one part of its name, with a letter between
them. -/
@[simp] lemma path_blockComponent (wx wy : ℕ) :
    path (blockComponent wx wy).name = ["DSPBlock".toList, digits wx ++ 'x' :: digits wy] := by
  have hdigits : ∀ n, '_' ∉ digits n := fun n => not_mem_digits rfl
  have hpart : '_' ∉ digits wx ++ 'x' :: digits wy := by simp [hdigits]
  simp [path, blockComponent, Component.primitive, blockName, toString, cut, cut_of_not_mem hpart]

/-- The letter for a field with or without sign. -/
def signLetter (signed : Bool) : Char := if signed then 's' else 'u'

lemma ProductTable.path_name (table : ProductTable) :
    path table.name = ["SmallMultTable".toList, digits table.dx, digits table.dy,
      digits table.wOut, [signLetter table.signedX, signLetter table.signedY]] := by
  have hsign : ∀ signed, (name.sign signed).toList = [signLetter signed] := by decide
  have hletter : ∀ signed, signLetter signed ≠ '_' := by decide
  unfold name
  simp [path, toString, cut, hsign, hletter]

/-- The name of a table that is defined. -/
lemma ProductTable.path_component {table : ProductTable} (h : table.component t = .ok c) :
    path c.name = ["SmallMultTable".toList, digits table.dx, digits table.dy,
      digits table.wOut, [signLetter table.signedX, signLetter table.signedY]] := by
  rw [(isElement_of_component h).2, path_name]

/-! ### Elements -/

/-- A table is what its name tells. -/
lemma ProductTable.eq_of_path {table table' : ProductTable}
    (h : path table.name = path table'.name) : table = table' := by
  have hletter : ∀ {s s' : Bool}, signLetter s = signLetter s' → s = s' := by decide
  obtain ⟨dx, dy, wOut, signedX, signedY⟩ := table
  obtain ⟨dx', dy', wOut', signedX', signedY'⟩ := table'
  simp only [path_name, List.cons.injEq, digits_inj, and_true, true_and] at h
  obtain ⟨rfl, rfl, rfl, hx, hy⟩ := h
  rw [hletter hx, hletter hy]

/-- A block is what its name tells. -/
lemma block_inj {wx wy wx' wy' : ℕ}
    (h : digits wx ++ 'x' :: digits wy = digits wx' ++ 'x' :: digits wy') :
    wx = wx' ∧ wy = wy' := by
  have hnone : ∀ n, 'x' ∉ digits n := fun n => not_mem_digits rfl
  obtain ⟨hx, -, hy⟩ := (List.append_cons_inj_of_notMem (hnone wx) (hnone wy)).mp h
  exact ⟨digits_inj.mp hx, digits_inj.mp hy⟩

namespace Component

/-- Elements of one name are equal. -/
lemma IsPart.eq_of_name (h : c.IsPart t) (h' : c'.IsPart t) (hname : c.name = c'.name) :
    c = c' := by
  have hpath : path c.name = path c'.name := congrArg path hname
  cases h with
  | table h =>
    cases h' with
    | table h' =>
      rw [(ProductTable.isElement_of_component h).2,
        (ProductTable.isElement_of_component h').2] at hpath
      obtain rfl := ProductTable.eq_of_path hpath
      exact Except.ok.inj (h.symm.trans h')
    | _ => simp [ProductTable.path_component h] at hpath
  | block wx wy =>
    cases h' with
    | table h' => simp [ProductTable.path_component h'] at hpath
    | block wx' wy' =>
      obtain ⟨rfl, rfl⟩ : wx = wx' ∧ wy = wy' := block_inj (by simpa using hpath)
      rfl
    | _ => simp at hpath
  | adder width =>
    cases h' with
    | table h' => simp [ProductTable.path_component h'] at hpath
    | adder width' =>
      obtain rfl : width = width' := by simpa using hpath
      rfl
    | _ => simp at hpath
  | postAdder width =>
    cases h' with
    | table h' => simp [ProductTable.path_component h'] at hpath
    | postAdder width' =>
      obtain rfl : width = width' := by simpa using hpath
      rfl
    | _ => simp at hpath
  | compressor inputs =>
    cases h' with
    | table h' => simp [ProductTable.path_component h'] at hpath
    | compressor inputs' =>
      obtain rfl : inputs = inputs' := by simpa using hpath
      rfl
    | _ => simp at hpath

end Component

/-! ### Operators -/

/-- An operator has the name that its construction began with. -/
lemma Builder.name_of_construct {α : Type} {steps : Build α} {a : α} {name : String}
    (hrun : ∀ a b', steps (.forTarget name t) = .ok a b' → ∃ late, Run late (.forTarget name t) b')
    (h : (forTarget name t).construct steps = .ok (a, built)) : built.component.name = name := by
  obtain ⟨b, hsteps, rfl⟩ := construct_eq_ok h
  obtain ⟨late, hrun⟩ := hrun a b hsteps
  exact hrun.extends.name

lemma LongAdder.path_of_build {width : ℕ} {a : LongAdder} (h : build t width = .ok (a, built)) :
    path built.component.name = ["LongIntAdder".toList, digits width] := by
  rw [build] at h
  split_ifs at h
  obtain ⟨⟨_, _⟩, hconstruct, hpure⟩ := except_bind_eq_ok.mp h
  cases hpure
  have hname := Builder.name_of_construct
    (fun _ _ h => ⟨fun _ => True, steps_run_of_late (fun _ => trivial) h⟩) hconstruct
  rw [hname]
  simp [path, nameOf, toString, cut]

lemma Shifter.path_of_build {wIn maxShift : ℕ} {direction : ShiftDirection} {s : Shifter}
    (h : build t wIn maxShift direction = .ok (s, built)) :
    path built.component.name = [(direction.text ++ "Shifter").toList, digits wIn, "by".toList,
      "max".toList, digits maxShift] := by
  rw [build] at h
  split_ifs at h
  obtain ⟨⟨_, _⟩, hconstruct, hpure⟩ := except_bind_eq_ok.mp h
  cases hpure
  have hname := Builder.name_of_construct (fun _ _ h => ⟨fun _ => True, steps_run h⟩) hconstruct
  rw [hname]
  cases direction <;> simp [name, ShiftDirection.text, path, toString, cut]

/-- The word for signed or unsigned operands. -/
def signWord (signed : Bool) : String := if signed then "signed" else "unsigned"

lemma MultiplierPlan.path_of_construct [Tiling.Surroundings] {plan : MultiplierPlan}
    {m : Multiplier}
    (h : (Builder.forTarget plan.name t).construct (plan.steps t options) = .ok (m, built)) :
    path built.component.name = ["IntMultiplier".toList,
      (if plan.architecture.usesBlocks then "UsingDSP" else "LogicOnly").toList, digits plan.wx,
      digits plan.wy, digits plan.wOut, (signWord plan.signed).toList] := by
  have hname : built.component.name = plan.name :=
    Builder.name_of_construct (fun _ _ h => ⟨_, steps_run rfl h⟩) h
  rw [hname]
  unfold name
  cases plan.architecture.usesBlocks <;> cases plan.signed <;>
    simp [path, toString, cut, signWord]

/-- The plan of a multiplier follows from its widths and its sign. -/
lemma MultiplierPlan.eq_of_make {wx wy wOut wx' wy' wOut' : ℕ} {signed signed' : Bool}
    {plan plan' : MultiplierPlan} (h : make t wx wy wOut signed options = .ok plan)
    (h' : make t wx' wy' wOut' signed' options = .ok plan') (hwx : plan.wx = plan'.wx)
    (hwy : plan.wy = plan'.wy) (hwOut : plan.wOut = plan'.wOut)
    (hsigned : plan.signed = plan'.signed) : plan = plan' := by
  obtain ⟨w, -, h⟩ := except_bind_eq_ok.mp h
  obtain ⟨w', -, h'⟩ := except_bind_eq_ok.mp h'
  cases h
  cases h'
  subst hwx hwy hwOut hsigned
  rfl

/-- The first part of the name of what a call makes. -/
def GeneratorCall.word : GeneratorCall → List Char
  | adder _ => "LongIntAdder".toList
  | multiplier .. => "IntMultiplier".toList
  | shifter _ _ direction => (direction.text ++ "Shifter").toList

/-- The first parts of the names of elements. -/
def partWords : List (List Char) :=
  ["IntAdder".toList, "DSPBlock".toList, "DSPPostAdder".toList, "SmallMultTable".toList,
    "Compressor".toList]

lemma GeneratorCall.word_not_mem (call : GeneratorCall) : call.word ∉ partWords := by
  have hshifter (direction : ShiftDirection) :
      (direction.text ++ "Shifter").toList ∉ partWords := by
    cases direction <;> decide
  cases call with
  | adder => exact (by decide : "LongIntAdder".toList ∉ partWords)
  | multiplier => exact (by decide : "IntMultiplier".toList ∉ partWords)
  | shifter _ _ direction => exact hshifter direction

/-- Shifters have other names than adders and multipliers. -/
lemma shifterWord_ne (direction : ShiftDirection) :
    (direction.text ++ "Shifter").toList ≠ "LongIntAdder".toList ∧
      (direction.text ++ "Shifter").toList ≠ "IntMultiplier".toList := by
  cases direction <;> decide

lemma Component.IsPart.head_path (h : c.IsPart t) :
    ∃ w ∈ partWords, (path c.name).head? = some w := by
  cases h with
  | table h => exact ⟨_, by decide, congrArg List.head? (ProductTable.path_component h)⟩
  | adder width => exact ⟨_, by decide, congrArg List.head? (path_rippleComponent width)⟩
  | block wx wy => exact ⟨_, by decide, congrArg List.head? (path_blockComponent wx wy)⟩
  | postAdder width => exact ⟨_, by decide, congrArg List.head? (path_postAdderComponent width)⟩
  | compressor inputs => exact ⟨_, by decide, congrArg List.head? (path_compressor inputs _ _)⟩

namespace GeneratorCall.Makes

variable {call call' : GeneratorCall} {built' : BuiltOperator}

lemma head_path [Tiling.Surroundings] (h : call.Makes t options built) :
    (path built.component.name).head? = some call.word := by
  cases h with
  | adder h => exact congrArg List.head? (LongAdder.path_of_build h)
  | multiplier h =>
    obtain ⟨plan, -, hconstruct⟩ := except_bind_eq_ok.mp h
    exact congrArg List.head? (MultiplierPlan.path_of_construct hconstruct)
  | shifter h => exact congrArg List.head? (Shifter.path_of_build h)

/-- No operator has the name of an element. -/
lemma name_ne [Tiling.Surroundings] (h : call.Makes t options built) (hc : c.IsPart t) :
    c.name ≠ built.component.name := by
  intro hname
  obtain ⟨w, hw, hhead⟩ := hc.head_path
  rw [hname, h.head_path] at hhead
  obtain rfl := Option.some.inj hhead
  exact call.word_not_mem hw

/-- Operators of one name are equal. -/
lemma eq_of_name [Tiling.Surroundings] (h : call.Makes t options built)
    (h' : call'.Makes t options built') (hname : built.component.name = built'.component.name) :
    built = built' := by
  have hword : call.word = call'.word := by
    rw [← Option.some.injEq, ← h.head_path, ← h'.head_path, hname]
  replace hname : path built.component.name = path built'.component.name := congrArg path hname
  have hsign : ∀ {s s' : Bool}, signWord s = signWord s' → s = s' := by decide
  have hne : "LongIntAdder".toList ≠ "IntMultiplier".toList := by decide
  cases h with
  | adder h =>
    cases h' with
    | adder h' =>
      rw [LongAdder.path_of_build h, LongAdder.path_of_build h'] at hname
      obtain rfl : _ = _ := by simpa using hname
      cases h.symm.trans h'
      rfl
    | multiplier => exact absurd hword hne
    | shifter => exact absurd hword.symm (shifterWord_ne _).1
  | multiplier h =>
    cases h' with
    | adder => exact absurd hword.symm hne
    | multiplier h' =>
      obtain ⟨plan, hplan, hconstruct⟩ := except_bind_eq_ok.mp h
      obtain ⟨plan', hplan', hconstruct'⟩ := except_bind_eq_ok.mp h'
      simp only [MultiplierPlan.path_of_construct hconstruct,
        MultiplierPlan.path_of_construct hconstruct', List.cons.injEq, digits_inj,
        String.toList_inj, and_true, true_and] at hname
      obtain ⟨-, hwx, hwy, hwOut, hsigned⟩ := hname
      obtain rfl := MultiplierPlan.eq_of_make hplan hplan' hwx hwy hwOut (hsign hsigned)
      cases hconstruct.symm.trans hconstruct'
      rfl
    | shifter => exact absurd hword.symm (shifterWord_ne _).2
  | @shifter _ _ direction _ _ h =>
    cases h' with
    | adder => exact absurd hword (shifterWord_ne _).1
    | multiplier => exact absurd hword (shifterWord_ne _).2
    | @shifter _ _ direction' _ _ h' =>
      simp only [Shifter.path_of_build h, Shifter.path_of_build h', List.cons.injEq, digits_inj,
        String.toList_inj, and_true, true_and] at hname
      obtain ⟨hdirection, rfl, rfl⟩ := hname
      obtain rfl : direction = direction' := by
        revert hdirection
        cases direction <;> cases direction' <;> decide
      cases h.symm.trans h'
      rfl

end GeneratorCall.Makes

/-! ### Libraries -/

/-- The components that are made for a target under some options: elements and
operators. -/
inductive Component.Made [Tiling.Surroundings] (t : Target) (options : MultiplierOptions) :
    Component → Prop
  | part {c : Component} (h : c.IsPart t) : Made t options c
  | operator {call : GeneratorCall} {built : BuiltOperator} (h : call.Makes t options built) :
    Made t options built.component

/-- Components of one name are equal. -/
lemma Component.Made.eq_of_name [Tiling.Surroundings] (h : c.Made t options)
    (h' : c'.Made t options) (hname : c.name = c'.name) : c = c' := by
  cases h with
  | part h =>
    cases h' with
    | part h' => exact h.eq_of_name h' hname
    | operator h' => exact absurd hname (h'.name_ne h)
  | operator h =>
    cases h' with
    | part h' => exact absurd hname.symm (h.name_ne h')
    | operator h' => rw [h.eq_of_name h' hname]

/-- All components of an operator are made. -/
lemma GeneratorCall.Makes.made [Tiling.Surroundings] {call : GeneratorCall}
    (h : call.Makes t options built) : ∀ c ∈ built.components, c.Made t options := by
  refine List.forall_mem_cons.mpr ⟨.operator h, fun c hc => ?_⟩
  obtain ⟨b, ⟨p, hb, -⟩, -, -, rfl⟩ := h.builds.complete
  exact .part (hb.elements c (Array.mem_toList_iff.mp hc)).part

namespace Library

variable {l : Library} {P : Component → Prop}

/-- What holds of all components holds with others of which it holds. -/
lemma forall_insertAll {cs : List Component} (hl : ∀ c ∈ l.toList, P c) (hcs : ∀ c ∈ cs, P c) :
    ∀ c ∈ (cs.foldl (fun l c => (l.insert c).2) l).toList, P c := by
  induction cs generalizing l with
  | nil => exact hl
  | cons c cs ih =>
    obtain ⟨hc, hcs⟩ := List.forall_mem_cons.mp hcs
    exact ih (forall_insert hl hc) hcs

/-- So it does with an operator and all that it uses. -/
lemma forall_register (hl : ∀ c ∈ l.toList, P c) (hbuilt : ∀ c ∈ built.components, P c) :
    ∀ c ∈ (l.register built).2.toList, P c := by
  obtain ⟨htop, hparts⟩ := List.forall_mem_cons.mp hbuilt
  rw [register, ← Array.foldl_toList]
  exact forall_insert (forall_insertAll hl hparts) htop

/-- The names of an operator and of all that it uses are in the library then. -/
lemma contains_register : ∀ c ∈ built.components, (l.register built).2.contains c.name := by
  intro c hc
  rw [register, ← Array.foldl_toList]
  rcases List.mem_cons.mp hc with rfl | hc
  · exact contains_insert (.inr rfl)
  · exact contains_insert (.inl (contains_insertAll (.inr ⟨c, hc, rfl⟩)))

end Library

/-! ### Generators -/

/-- The library of a generator is closed, and all that is in it was made for the
target of the generator under its options. -/
structure Generator.Sound [Tiling.Surroundings] (t : Target) (options : MultiplierOptions)
    (g : Generator) : Prop where
  target : g.target = t
  sameOptions : g.options = options
  closed : g.library.Closed
  made : ∀ c ∈ g.library.toList, c.Made t options

namespace Generator

variable {g : Generator}

lemma sound_start [Tiling.Surroundings] : (start t options).Sound t options where
  target := rfl
  sameOptions := rfl
  closed := Library.closed_empty
  made c hc := by simp [start, Library.empty, Library.toList, Arena.empty] at hc

/-- What is in the library under the name of a component that is made is that
component. -/
lemma Sound.get?_eq [Tiling.Surroundings] (hg : g.Sound t options) (hc : c.Made t options)
    (h : g.library.contains c.name) : g.library.get? c.name = some c := by
  obtain ⟨c', hc'⟩ := hg.closed.exists_get? h
  obtain ⟨hmem, hname⟩ := hg.closed.get?_eq_some hc'
  rw [hc', (hg.made c' hmem).eq_of_name hc hname]

end Generator

namespace GeneratorCall

variable {call : GeneratorCall} {g : Generator}

/-- A call keeps the library sound. -/
lemma sound_after [Tiling.Surroundings] (hg : g.Sound t options) (call : GeneratorCall) :
    (call.after g).Sound t options := by
  have hclosed := closed_after hg.closed call
  obtain ⟨rfl, rfl, -, hmade⟩ := hg
  obtain ⟨built, hbuilt, hafter⟩ | ⟨-, operator, e, hafter⟩ := after_cases call g
  · rw [hafter] at hclosed ⊢
    exact ⟨rfl, rfl, hclosed, Library.forall_register hmade hbuilt.made⟩
  · rw [hafter] at hclosed ⊢
    exact ⟨rfl, rfl, hclosed, hmade⟩

/-- All names of what a call makes are in the library after it. -/
lemma contains_after [Tiling.Surroundings] (htarget : g.target = t) (hoptions : g.options = options)
    (h : call.Makes t options built) :
    ∀ c ∈ built.components, (call.after g).library.contains c.name := by
  subst htarget hoptions
  obtain ⟨built', hbuilt, hafter⟩ | ⟨hnone, -⟩ := after_cases call g
  · obtain rfl := h.unique hbuilt
    rw [hafter]
    exact Library.contains_register
  · exact absurd h (hnone built)

end GeneratorCall

/-- After any calls the library is sound. -/
lemma Generator.sound_run [Tiling.Surroundings] (t : Target) (options : MultiplierOptions)
    (calls : List GeneratorCall) :
    (calls.foldl GeneratorCall.after (start t options)).Sound t options :=
  List.foldlRecOn calls GeneratorCall.after sound_start fun _ hg call _ => call.sound_after hg

/-- **To drop a component of a known name loses nothing.** Whatever a generator
was asked to build before, if the name of an operator or of an element that a
call makes is registered, then it is registered for a component that is equal to
the new one in all fields. So after the call every component that it made is
found under its name. -/
theorem component_of_name [Tiling.Surroundings] (t : Target) (options : MultiplierOptions)
    (calls : List GeneratorCall) {call : GeneratorCall} {built : BuiltOperator}
    (h : call.Makes t options built) :
    let g := calls.foldl GeneratorCall.after (Generator.start t options)
    ∀ c ∈ built.components, (g.library.contains c.name → g.library.get? c.name = some c) ∧
      (call.after g).library.get? c.name = some c := by
  intro g c hc
  have hg : g.Sound t options := Generator.sound_run t options calls
  have hmade := h.made c hc
  refine ⟨hg.get?_eq hmade, (call.sound_after hg).get?_eq hmade ?_⟩
  exact GeneratorCall.contains_after hg.target hg.sameOptions h c hc

open Runs in
/-- A wide adder of four bits uses the adder that a small multiplier uses. -/
lemma LongAdder.build_gateOnly :
    ∃ a built, LongAdder.build gateOnly 4 = .ok (a, built) ∧
      built.subcomponents = #[rippleComponent 4] := by
  have hplan : ChunkPlan.make gateOnly 4 gateOnly.period =
      .ok ⟨4, layChunks 0 [4], .single, 0, 0⟩ := rfl
  have hpipelined : gateOnly.pipelined = false := rfl
  have hzero : Nat.repr 0 = "0" := rfl
  simp [LongAdder.build, LongAdder.steps, carrySelect, awaitOperands, Addition.ripple,
    CarryIn.bind, hplan, hpipelined, hzero, Builder.finish, Builder.finishWith]

theorem component_of_name_shared :
    ∃ multiplier adder,
      GeneratorCall.Makes gateOnly .standard (.multiplier 2 2 0 false) multiplier ∧
      GeneratorCall.Makes gateOnly .standard (.adder 4) adder ∧
      let g := [GeneratorCall.multiplier 2 2 0 false].foldl GeneratorCall.after
        (Generator.start gateOnly .standard)
      ∃ c ∈ multiplier.components, c ∈ adder.components ∧ g.library.contains c.name ∧
        g.library.get? c.name = some c := by
  obtain ⟨m, multiplier, -, -, hm, -, -, hparts⟩ := Multiplier.build_gateOnly
  obtain ⟨a, adder, ha, hparts'⟩ := LongAdder.build_gateOnly
  have hmultiplier : GeneratorCall.Makes gateOnly .standard (.multiplier 2 2 0 false) multiplier :=
    .multiplier hm
  have hadder : GeneratorCall.Makes gateOnly .standard (.adder 4) adder := .adder ha
  have hmem : rippleComponent 4 ∈ multiplier.components := by
    simp [BuiltOperator.components, hparts]
  have hmem' : rippleComponent 4 ∈ adder.components := by simp [BuiltOperator.components, hparts']
  have hcontains := GeneratorCall.contains_after (g := .start gateOnly .standard) rfl rfl
    hmultiplier _ hmem
  exact ⟨multiplier, adder, hmultiplier, hadder, _, hmem, hmem', hcontains,
    (component_of_name gateOnly .standard [.multiplier 2 2 0 false] hadder _ hmem').1 hcontains⟩

end Datapath
