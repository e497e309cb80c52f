/-
The names of signals.

* `path`: the parts of a name between its underscores. A name is read part by
  part, so names with different parts in one place are different.
* `Under`, `Below`: the names that begin with some parts, and those that go on
  with a part of some form.
* `Worded`, `Numbered`: parts that are one of some words, or one of some words
  and one of some numbers behind it.
* `mem_worded`: a name goes on with the word that is put behind it.
-/
import Datapath.Builder
import Mathlib.Data.Set.Lattice
import Mathlib.Order.CompletePartialOrder
import Mathlib.Tactic.Lemma

namespace Datapath

/-! ### Parts of names -/

/-- The parts of a text between its underscores. -/
def cut : List Char → List (List Char)
  | [] => [[]]
  | c :: cs => if c = '_' then [] :: cut cs else (cut cs).modifyHead (c :: ·)

lemma cut_ne_nil (cs : List Char) : cut cs ≠ [] := by
  induction cs with
  | nil => exact List.cons_ne_nil _ _
  | cons c cs ih =>
    rw [cut]
    split
    · exact List.cons_ne_nil _ _
    · rwa [Ne, List.modifyHead_eq_nil_iff]

/-- What is on both sides of an underscore is cut on its own. -/
@[simp] lemma cut_append_cons (cs ds : List Char) : cut (cs ++ '_' :: ds) = cut cs ++ cut ds := by
  induction cs with
  | nil => rfl
  | cons c cs ih =>
    obtain ⟨part, parts, hcut⟩ := List.exists_cons_of_ne_nil (cut_ne_nil cs)
    rw [List.cons_append, cut, cut, ih, hcut]
    split <;> rfl

lemma cut_of_not_mem {cs : List Char} (h : '_' ∉ cs) : cut cs = [cs] := by
  induction cs with
  | nil => rfl
  | cons c cs ih =>
    rw [List.mem_cons, not_or] at h
    obtain ⟨hc, hcs⟩ := h
    rw [cut, if_neg (Ne.symm hc), ih hcs]
    rfl

/-- The parts of a name between its underscores. -/
def path (name : String) : List (List Char) := cut name.toList

/-- The digits of a number as part of a name. -/
abbrev digits (n : ℕ) : List Char := Nat.toDigits 10 n

lemma isDigit_of_mem_digits {n : ℕ} {c : Char} (h : c ∈ digits n) : c.isDigit = true :=
  Nat.isDigit_of_mem_toDigits (by decide) (by decide) h

@[simp] lemma cut_digits (n : ℕ) : cut (digits n) = [digits n] :=
  cut_of_not_mem fun h => absurd (isDigit_of_mem_digits h) (by decide)

@[simp] lemma digits_inj {m n : ℕ} : digits m = digits n ↔ m = n := by
  refine ⟨fun h => ?_, fun h => h ▸ rfl⟩
  have hparsed := congrArg (Nat.ofDigitChars 10 · 0) h
  simpa using hparsed

/-! ### Words and numbers -/

/-- A part up to its first digit. -/
def word (part : List Char) : List Char := part.takeWhile (!·.isDigit)

/-- A part from its first digit on. -/
def number (part : List Char) : List Char := part.dropWhile (!·.isDigit)

lemma digits_cons (n : ℕ) : ∃ c cs, digits n = c :: cs ∧ c.isDigit = true := by
  obtain ⟨c, cs, (h : digits n = c :: cs)⟩ :=
    List.exists_cons_of_ne_nil (Nat.toDigits_ne_nil : digits n ≠ [])
  refine ⟨c, cs, h, isDigit_of_mem_digits (?_ : c ∈ digits n)⟩
  rw [h]
  exact List.mem_cons_self

@[simp] lemma word_digits (n : ℕ) : word (digits n) = [] := by
  obtain ⟨c, cs, h, hc⟩ := digits_cons n
  rw [h, word, List.takeWhile_cons, hc]
  rfl

@[simp] lemma number_digits (n : ℕ) : number (digits n) = digits n := by
  obtain ⟨c, cs, h, hc⟩ := digits_cons n
  rw [h, number, List.dropWhile_cons, hc]
  rfl

@[simp] lemma word_nil : word [] = [] := rfl

@[simp] lemma word_cons (c : Char) (cs : List Char) :
    word (c :: cs) = if c.isDigit then [] else c :: word cs := by
  rw [word, List.takeWhile_cons]
  cases c.isDigit <;> rfl

@[simp] lemma number_cons (c : Char) (cs : List Char) :
    number (c :: cs) = if c.isDigit then c :: cs else number cs := by
  rw [number, List.dropWhile_cons]
  cases c.isDigit <;> rfl

/-- A part that is one of some words, whatever its number. -/
def Worded (words : List String) (part : List Char) : Prop :=
  word part ∈ words.map String.toList

instance (words : List String) (part : List Char) : Decidable (Worded words part) :=
  inferInstanceAs (Decidable (_ ∈ _))

/-- A part that is one of some words and behind it one of some numbers. -/
def Numbered (words : List String) (I : ℕ → Prop) (part : List Char) : Prop :=
  Worded words part ∧ ∃ n, I n ∧ number part = digits n

/-- A text that is an underscore and behind it one of some words. -/
def Begins (words : List String) (rest : String) : Prop :=
  rest.toList.head? = some '_' ∧ '_' ∉ rest.toList.tail ∧ Worded words rest.toList.tail

instance (words : List String) (rest : String) : Decidable (Begins words rest) :=
  inferInstanceAs (Decidable (_ ∧ _ ∧ _))

lemma Begins.exists_part {words : List String} {rest : String} (h : Begins words rest) :
    ∃ part, rest.toList = '_' :: part ∧ '_' ∉ part ∧ Worded words part := by
  obtain ⟨hhead, hone, hword⟩ := h
  obtain ⟨part, hpart⟩ := List.head?_eq_some_iff.mp hhead
  rw [hpart] at hone hword
  exact ⟨part, hpart, hone, hword⟩

/-! ### Sets of names -/

/-- The names that begin with some parts. -/
def Under (p : List (List Char)) : Set String := {name | p <+: path name}

/-- The names that begin with some parts and go on with a part of some form. -/
def Below (p : List (List Char)) (Q : List Char → Prop) : Set String :=
  {name | ∃ part, Q part ∧ name ∈ Under (p ++ [part])}

variable {p q : List (List Char)} {Q Q' : List Char → Prop} {part : List Char}

lemma under_subset (h : p <+: q) : Under q ⊆ Under p := fun _ hname => h.trans hname

lemma below_subset_under : Below p Q ⊆ Under p := by
  rintro name ⟨part, -, hname⟩
  exact (List.prefix_append p [part]).trans hname

lemma under_subset_below (h : q = p ++ [part]) (hpart : Q part) : Under q ⊆ Below p Q := by
  rw [h]
  exact fun name hname => ⟨part, hpart, hname⟩

lemma below_subset (h : ∀ part, Q part → Q' part) : Below p Q ⊆ Below p Q' := by
  rintro name ⟨part, hpart, hname⟩
  exact ⟨part, h part hpart, hname⟩

/-- Names that go on with different parts are different. -/
lemma below_disjoint (h : ∀ part, Q part → ¬ Q' part) : Disjoint (Below p Q) (Below p Q') := by
  rw [Set.disjoint_left]
  rintro name ⟨part, hpart, hname⟩ ⟨part', hpart', hname'⟩
  have hsame : p ++ [part] = p ++ [part'] :=
    (List.prefix_of_prefix_length_le hname hname' (by simp)).eq_of_length (by simp)
  obtain rfl : part = part' := by simpa using hsame
  exact h part hpart hpart'

variable {words words' : List String} {I I' : ℕ → Prop}

/-- Parts that are different words are different. -/
lemma worded_disjoint (h : ∀ w ∈ words, w ∉ words') :
    Disjoint (Below p (Worded words)) (Below p (Worded words')) := by
  refine below_disjoint fun part hpart hpart' => ?_
  obtain ⟨w, hw, hword⟩ := List.mem_map.mp hpart
  obtain ⟨w', hw', hword'⟩ := List.mem_map.mp hpart'
  obtain rfl : w = w' := String.toList_injective (hword.trans hword'.symm)
  exact h w hw hw'

lemma worded_subset (h : words ⊆ words') : Below p (Worded words) ⊆ Below p (Worded words') :=
  below_subset fun _ hpart => List.map_subset _ h hpart

lemma numbered_subset_worded : Below p (Numbered words I) ⊆ Below p (Worded words) :=
  below_subset fun _ hpart => hpart.1

lemma numbered_subset (h : words ⊆ words') (hI : ∀ n, I n → I' n) :
    Below p (Numbered words I) ⊆ Below p (Numbered words' I') :=
  below_subset fun _ ⟨hpart, n, hn, hnumber⟩ => ⟨List.map_subset _ h hpart, n, hI n hn, hnumber⟩

/-- Parts with different numbers are different. -/
lemma numbered_disjoint (h : ∀ n, I n → ¬ I' n) :
    Disjoint (Below p (Numbered words I)) (Below p (Numbered words' I')) := by
  refine below_disjoint fun part ⟨_, n, hn, hnumber⟩ ⟨_, n', hn', hnumber'⟩ => ?_
  obtain rfl : n = n' := digits_inj.mp (hnumber.symm.trans hnumber')
  exact h n hn hn'

/-! ### Names that go on -/

variable {tag rest name : String}

/-- A name of one part. -/
lemma mem_worded_nil (hone : '_' ∉ name.toList) (hword : Worded words name.toList) :
    name ∈ Below [] (Worded words) :=
  under_subset_below (cut_of_not_mem hone) hword List.prefix_rfl

/-- A name that goes on with one of some words. -/
lemma mem_worded (h : Begins words rest) : tag ++ rest ∈ Below (path tag) (Worded words) := by
  obtain ⟨part, hpart, hone, hword⟩ := h.exists_part
  have hpath : path (tag ++ rest) = path tag ++ [part] := by
    rw [path, String.toList_append, hpart, cut_append_cons, cut_of_not_mem hone, path]
  exact under_subset_below hpath hword List.prefix_rfl

end Datapath
