/-
The history of a library.

* `firsts`: the first component of every name in a list; `mem_firsts`: a search by
  name finds it.
* `Library.Operation`: what can be asked of a library; `Library.after`,
  `Library.taken`: operations one after the other, and the diagnostics that they
  take away.
* `Library.Lists`: a library is the first component of every name in a list;
  `Library.Lists.insert`: one component more.
* `Log.Accounts`: a log holds what was emitted and not taken, and counts all errors;
  `Log.Accounts.emit`, `Log.Accounts.drain`: one diagnostic more, and none held.
* `Library.Recorded`: both for what a history registers and reports;
  `Library.Recorded.perform`: one operation more.
* `Library.components_of_history`: so it is after every history.
-/
import Datapath.Proofs.Arena
import Datapath.Proofs.Library.Closure

namespace Datapath

/-! ### First components -/

/-- The first component of every name, in order. -/
def firsts : List Component → List Component
  | [] => []
  | c :: cs => c :: (firsts cs).filter (·.name != c.name)

variable {c : Component} {cs : List Component} {name : String}

/-- A search by name finds the first component. -/
lemma mem_firsts : c ∈ firsts cs ↔ cs.find? (·.name == c.name) = some c := by
  induction cs with
  | nil => simp [firsts]
  | cons d cs ih =>
    have hkept : (c.name != d.name) = !(d.name == c.name) := by rw [bne, BEq.comm]
    rw [firsts, List.mem_cons, List.mem_filter, ih, List.find?_cons, hkept]
    cases hname : d.name == c.name with
    | true => simp [eq_comm]
    | false =>
      have hne : c ≠ d := by
        rintro rfl
        simp at hname
      simp [hne]

/-- No two of them have the same name. -/
lemma nodup_firsts (cs : List Component) : ((firsts cs).map Component.name).Nodup := by
  induction cs with
  | nil => exact List.nodup_nil
  | cons c cs ih =>
    rw [firsts, List.map_cons, List.nodup_cons]
    exact ⟨by simp, ih.sublist (List.filter_sublist.map _)⟩

/-- A component at the end is one of them if no other has its name. -/
lemma firsts_concat (cs : List Component) (c : Component) :
    firsts (cs ++ [c]) =
      if (cs.find? (·.name == c.name)).isSome then firsts cs else firsts cs ++ [c] := by
  induction cs with
  | nil => rfl
  | cons d cs ih =>
    have hkept : (c.name != d.name) = !(d.name == c.name) := by rw [bne, BEq.comm]
    rw [List.cons_append, firsts, firsts, ih, List.find?_cons]
    cases hname : d.name == c.name with
    | true =>
      rw [Option.isSome_some, if_pos rfl]
      split_ifs
      · rfl
      · simp [List.filter_append, hkept, hname]
    | false =>
      dsimp only
      split_ifs
      · rfl
      · simp [List.filter_append, hkept, hname]

/-- More components leave the first ones where they are. -/
lemma firsts_prefix (cs more : List Component) : firsts cs <+: firsts (cs ++ more) := by
  induction more generalizing cs with
  | nil => rw [List.append_nil]
  | cons c more ih =>
    have hnext : firsts cs <+: firsts (cs ++ [c]) := by
      rw [firsts_concat]
      split_ifs
      · exact List.prefix_rfl
      · exact List.prefix_append _ _
    rw [List.append_cons]
    exact hnext.trans (ih _)

/-! ### Operations -/

namespace Library

/-- What can be asked of a library. -/
inductive Operation where
  | register (built : BuiltOperator)
  | reportFailure (operator : String) (e : BuildError)
  | drain

namespace Operation

/-- The components that arrive: what an operator uses, and then itself. -/
def arrivals : Operation → List Component
  | register built => built.subcomponents.toList ++ [built.component]
  | reportFailure .. | drain => []

/-- The diagnostics that are emitted. -/
def emitted : Operation → List Diagnostic
  | register built => built.diagnostics.toList
  | reportFailure operator e => [(Diagnostic.ofError e).inOperator operator]
  | drain => []

end Operation

/-- The library after an operation. -/
def perform (l : Library) : Operation → Library
  | .register built => (l.register built).2
  | .reportFailure operator e => l.reportFailure operator e
  | .drain => { l with log := l.log.drain.2 }

/-- The diagnostics that an operation takes away. -/
def takenBy (l : Library) : Operation → List Diagnostic
  | .drain => l.log.drain.1.toList
  | .register .. | .reportFailure .. => []

/-- The library after some operations. -/
def after (l : Library) : List Operation → Library
  | [] => l
  | op :: ops => (l.perform op).after ops

/-- The diagnostics that some operations take away. -/
def taken (l : Library) : List Operation → List Diagnostic
  | [] => []
  | op :: ops => l.takenBy op ++ (l.perform op).taken ops

end Library

/-! ### Components -/

namespace Library

variable {l : Library} {built : BuiltOperator}

/-- The library is the first component of every name in a list, under its name. -/
structure Lists (l : Library) (cs : List Component) : Prop where
  components : l.toList = firsts cs
  indexed : l.components.Indexed Component.name l.index

lemma component?_eq (l : Library) (id : ComponentId) : l.component? id = l.toList[id]? :=
  Array.getElem?_toList.symm

namespace Lists

lemma empty : Lists .empty [] := ⟨rfl, Arena.Indexed.empty⟩

/-- What is found under a name is the first component of that name. -/
lemma get?_eq (h : l.Lists cs) (name : String) : l.get? name = cs.find? (·.name == name) := by
  ext c
  have hfound : l.get? name = some c ↔ c ∈ firsts cs ∧ c.name = name := by
    rw [Library.get?, Option.bind_eq_some_iff, ← h.components, List.mem_iff_getElem?]
    simp only [← component?_eq, h.indexed name]
    constructor
    · rintro ⟨id, ⟨c', hc', hname⟩, hc⟩
      cases hc'.symm.trans hc
      exact ⟨⟨id, hc⟩, hname⟩
    · rintro ⟨⟨id, hc⟩, hname⟩
      exact ⟨id, ⟨c, hc, hname⟩, hc⟩
  rw [hfound, mem_firsts]
  constructor
  · rintro ⟨hfind, rfl⟩
    exact hfind
  · intro hfind
    have hname := List.find?_some hfind
    obtain rfl := eq_of_beq hname
    exact ⟨hfind, rfl⟩

/-- A name is taken if there is a component of that name. -/
lemma contains_eq (h : l.Lists cs) (name : String) : l.contains name = (l.get? name).isSome := by
  rw [Library.contains, Std.HashMap.contains_eq_isSome_getElem?, Library.get?]
  cases hid : l.index[name]? with
  | none => rfl
  | some id =>
    obtain ⟨c, hc, -⟩ := (h.indexed name id).mp hid
    exact (congrArg Option.isSome hc).symm

/-- One component more. -/
lemma insert (h : l.Lists cs) (c : Component) : (l.insert c).2.Lists (cs ++ [c]) := by
  have htaken : (cs.find? (·.name == c.name)).isSome = l.contains c.name := by
    rw [h.contains_eq, h.get?_eq]
  rw [Library.contains, Std.HashMap.contains_eq_isSome_getElem?] at htaken
  rw [Library.insert]
  split
  case h_1 id hid =>
    rw [hid] at htaken
    refine ⟨?_, h.indexed⟩
    rw [firsts_concat, htaken]
    exact h.components
  case h_2 hid =>
    rw [hid] at htaken
    have hlast : ({ l with components := (l.components.alloc c).2 } : Library).toList =
        l.toList ++ [c] := Array.toList_push
    refine ⟨hlast.trans ?_, h.indexed.alloc ?_⟩
    · rw [firsts_concat, htaken, h.components]
      rfl
    · rw [Std.HashMap.contains_eq_isSome_getElem?, hid]
      rfl

/-- The number that a component gets is that of the component of its name. -/
lemma component?_insert (h : l.Lists cs) (c : Component) :
    ∃ d, (l.insert c).2.component? (l.insert c).1 = some d ∧ d.name = c.name := by
  rw [Library.insert]
  split
  case h_1 id hid => exact (h.indexed c.name id).mp hid
  case h_2 => exact ⟨c, Arena.get?_alloc_self _ _, rfl⟩

/-- Several components more. -/
lemma insertAll (h : l.Lists cs) (more : List Component) :
    (more.foldl (fun l c => (l.insert c).2) l).Lists (cs ++ more) := by
  induction more generalizing l cs with
  | nil => rwa [List.append_nil]
  | cons c more ih =>
    rw [List.append_cons]
    exact ih (h.insert c)

/-- The diagnostics have nothing to do with it. -/
lemma logged (h : l.Lists cs) (log : Log) : ({ l with log } : Library).Lists cs :=
  ⟨h.components, h.indexed⟩

/-- One operator more. -/
lemma register (h : l.Lists cs) (built : BuiltOperator) :
    (l.register built).2.Lists (cs ++ (Operation.register built).arrivals) := by
  rw [Library.register, ← Array.foldl_toList, Operation.arrivals, ← List.append_assoc]
  exact ((h.insertAll _).logged _).insert _

/-- The number that an operator gets is that of the component of its name. -/
lemma component?_register (h : l.Lists cs) (built : BuiltOperator) :
    ∃ c, (l.register built).2.component? (l.register built).1 = some c ∧
      c.name = built.component.name := by
  rw [Library.register, ← Array.foldl_toList]
  exact ((h.insertAll _).logged _).component?_insert _

/-- More components leave every number as it is. -/
lemma component?_mono (h : l.Lists cs) {l' : Library} {more : List Component}
    (h' : l'.Lists (cs ++ more)) {id : ComponentId} (hc : l.component? id = some c) :
    l'.component? id = some c := by
  have hprefix : l.toList <+: l'.toList := by
    rw [h.components, h'.components]
    exact firsts_prefix cs more
  rw [component?_eq] at hc ⊢
  obtain ⟨hid, rfl⟩ := List.getElem?_eq_some_iff.mp hc
  exact List.prefix_iff_getElem?.mp hprefix id hid

end Lists

/-- A component leaves the diagnostics as they are. -/
lemma log_insert (l : Library) (c : Component) : (l.insert c).2.log = l.log := by
  obtain ⟨-, heq⟩ | heq := l.insert_cases c
  · rw [heq]
  · rw [heq]

/-- Several components do so too. -/
lemma log_insertAll (l : Library) (cs : List Component) :
    (cs.foldl (fun l c => (l.insert c).2) l).log = l.log := by
  induction cs generalizing l with
  | nil => rfl
  | cons c cs ih => exact (ih _).trans (l.log_insert c)

/-- An operator adds its diagnostics. -/
lemma log_register (l : Library) (built : BuiltOperator) :
    (l.register built).2.log = l.log.extend built.diagnostics.toList := by
  rw [Library.register, ← Array.foldl_toList, log_insert, log_insertAll]

end Library

/-! ### Diagnostics -/

/-- The log holds what was emitted, apart from what was taken first, and it has counted
all errors. -/
structure Log.Accounts (log : Log) (taken emitted : List Diagnostic) : Prop where
  held : taken ++ log.held.toList = emitted
  errors : log.errors = emitted.countP (·.severity.isError)

namespace Log.Accounts

variable {log : Log} {taken emitted : List Diagnostic}

/-- One diagnostic more. -/
lemma emit (h : log.Accounts taken emitted) (d : Diagnostic) :
    (log.emit d).Accounts taken (emitted ++ [d]) where
  held := by rw [held_emit, Array.toList_push, ← List.append_assoc, h.held]
  errors := by
    rw [List.countP_append, ← h.errors, List.countP_singleton, Log.emit]
    split_ifs <;> rfl

/-- Several diagnostics more. -/
lemma extend (h : log.Accounts taken emitted) (ds : List Diagnostic) :
    (log.extend ds).Accounts taken (emitted ++ ds) := by
  induction ds generalizing log emitted with
  | nil => rwa [List.append_nil]
  | cons d ds ih =>
    rw [List.append_cons]
    exact ih (h.emit d)

/-- What is held is taken. The count stays. -/
lemma drain (h : log.Accounts taken emitted) :
    log.drain.2.Accounts (taken ++ log.drain.1.toList) emitted where
  held := (List.append_nil _).trans h.held
  errors := h.errors

end Log.Accounts

/-! ### Histories -/

namespace Library

variable {l : Library} {past ops : List Operation} {taken : List Diagnostic}

/-- The history so far explains the library: it has the components that it registers,
and the diagnostics that it emits. -/
structure Recorded (past : List Operation) (taken : List Diagnostic) (l : Library) : Prop where
  lists : l.Lists (past.flatMap Operation.arrivals)
  accounts : l.log.Accounts taken (past.flatMap Operation.emitted)

namespace Recorded

lemma empty : Recorded [] [] .empty := ⟨.empty, ⟨rfl, rfl⟩⟩

/-- One operation more. -/
lemma perform (h : Recorded past taken l) (op : Operation) :
    Recorded (past ++ [op]) (taken ++ l.takenBy op) (l.perform op) := by
  obtain ⟨hlists, haccounts⟩ := h
  constructor
  · rw [List.flatMap_append, List.flatMap_singleton]
    cases op with
    | register built => exact hlists.register built
    | reportFailure operator e | drain =>
      rw [Operation.arrivals, List.append_nil]
      exact hlists.logged _
  · rw [List.flatMap_append, List.flatMap_singleton]
    cases op with
    | register built =>
      rw [takenBy, List.append_nil, Library.perform, log_register]
      exact haccounts.extend _
    | reportFailure operator e =>
      rw [takenBy, List.append_nil]
      exact haccounts.emit _
    | drain =>
      rw [Operation.emitted, List.append_nil]
      exact haccounts.drain

/-- Any number of operations more. -/
lemma after (h : Recorded past taken l) (ops : List Operation) :
    Recorded (past ++ ops) (taken ++ l.taken ops) (l.after ops) := by
  induction ops generalizing past taken l with
  | nil => rwa [List.append_nil, Library.taken, List.append_nil]
  | cons op ops ih =>
    rw [List.append_cons, Library.taken, ← List.append_assoc]
    exact ih (h.perform op)

/-- Whatever follows, a number leads to the same component. -/
lemma component?_after (h : Recorded past taken l) {id : ComponentId}
    (hc : l.component? id = some c) (ops : List Operation) :
    (l.after ops).component? id = some c := by
  have hlists := (h.after ops).lists
  rw [List.flatMap_append] at hlists
  exact h.lists.component?_mono hlists hc

end Recorded

/-- **After every history the library is consistent.** Its components are the first
ones of their names among all that arrived, in order, and no two have the same name.
What is found under a name is the first component that arrived under it. A number
leads to the same component whatever follows, and the number of an operator leads to
a component of its name. The diagnostics that were taken and those that are held are
all that were emitted, in order, and the errors among them are counted. A failure
changes no component and adds one error. -/
theorem components_of_history (ops more : List Operation) :
    let arrived := ops.flatMap Operation.arrivals
    let emitted := ops.flatMap Operation.emitted
    let l := empty.after ops
    l.toList = firsts arrived ∧
    (l.toList.map Component.name).Nodup ∧
    (∀ name, l.get? name = arrived.find? (·.name == name)) ∧
    (∀ name, l.contains name = (l.get? name).isSome) ∧
    (∀ id c, l.component? id = some c → (l.after more).component? id = some c) ∧
    (∀ built, ∃ c, c.name = built.component.name ∧
      (l.register built).2.component? (l.register built).1 = some c ∧
      ((l.register built).2.after more).component? (l.register built).1 = some c) ∧
    empty.taken ops ++ l.log.held.toList = emitted ∧
    l.log.errors = emitted.countP (·.severity.isError) ∧
    (∀ operator e, ∃ d : Diagnostic,
      d.severity = .error ∧ d.operator = some operator ∧ d.message = e.message ∧
      l.reportFailure operator e =
        { l with log := { held := l.log.held.push d, errors := l.log.errors + 1 } }) := by
  intro arrived emitted l
  have hl : Recorded ops (empty.taken ops) l := Recorded.empty.after ops
  have hlist : l.toList = firsts arrived := hl.lists.components
  refine ⟨hlist, ?_, hl.lists.get?_eq, hl.lists.contains_eq, fun _ _ hc => hl.component?_after hc _,
    fun built => ?_, hl.accounts.held, hl.accounts.errors, fun operator e => ?_⟩
  · rw [hlist]
    exact nodup_firsts arrived
  · obtain ⟨c, hc, hname⟩ := hl.lists.component?_register built
    exact ⟨c, hname, hc, (hl.perform (.register built)).component?_after hc more⟩
  · exact ⟨_, rfl, rfl, rfl, rfl⟩

end Library

end Datapath
