/-
Append-only stores with an index.

* `Arena.Indexed`: an index leads from a name to the one item of that name.
* `Arena.Indexed.alloc`, `Arena.Indexed.update`: it does so after a new item of a new
  name, and after a change that keeps all names.
-/
import Datapath.Arena
import Mathlib.Tactic
import Std.Data.HashMap

namespace Datapath

namespace Arena

variable {α : Type} {a : Arena α} {name : α → String} {index : Std.HashMap String ℕ}

/-- The index leads from every name to the one item of that name. -/
def Indexed (a : Arena α) (name : α → String) (index : Std.HashMap String ℕ) : Prop :=
  ∀ s id, index[s]? = some id ↔ ∃ x, a.get? id = some x ∧ name x = s

namespace Indexed

lemma empty : Indexed Arena.empty name ∅ := by
  intro s id
  simp [get?, Arena.empty]

/-- No two items have the same name. -/
lemma eq_of_name (h : a.Indexed name index) {id id' : ℕ} {x x' : α} (hx : a.get? id = some x)
    (hx' : a.get? id' = some x') (hname : name x = name x') : id = id' := by
  have hid := (h (name x) id).mpr ⟨x, hx, rfl⟩
  have hid' := (h (name x) id').mpr ⟨x', hx', hname.symm⟩
  exact Option.some.inj (hid.symm.trans hid')

/-- A new item is found under its name, and the others under theirs. -/
lemma alloc (h : a.Indexed name index) {x : α} (hnew : index.contains (name x) = false) :
    (a.alloc x).2.Indexed name (index.insert (name x) a.size) := by
  intro s id
  have hget : (a.alloc x).2.get? id = if id = a.size then some x else a.get? id :=
    Array.getElem?_push
  have hend : a.get? a.size = none := Array.getElem?_eq_none le_rfl
  rw [Std.HashMap.getElem?_insert, hget]
  by_cases hname : name x = s
  · subst hname
    -- no other item has the name
    have hnone : ¬ ∃ x', a.get? id = some x' ∧ name x' = name x := by
      rw [← h]
      intro htaken
      rw [Std.HashMap.contains_eq_isSome_getElem?, htaken] at hnew
      cases hnew
    rw [if_pos (beq_self_eq_true _)]
    split_ifs with hid
    · simp [hid]
    · simpa [Ne.symm hid] using hnone
  · rw [if_neg (by simpa using hname), h]
    split_ifs with hid
    · simp [hid, hend, hname]
    · rfl

/-- The names of the items do not change with the items. -/
lemma update (h : a.Indexed name index) (id : ℕ) {f : α → α} (hf : ∀ x, name (f x) = name x) :
    (a.update id f).Indexed name index := by
  intro s id'
  rw [h, get?_update]
  split_ifs
  · cases a.get? id' <;> simp [hf]
  · rfl

end Indexed

end Arena

end Datapath
