/-
The rounds of a compression as steps of a construction.

* `Wires`: steps that emit wired compressors over known signals.
* `fullAdders_length`: full adders leave at most two bits of a column.
* `compressor_wires`, `fullAdders_wires`, `reduceColumn_wires`,
  `reduceColumns_wires`: what the steps emit is wired, and they do to the
  columns what the compressors do.
* `reduceAll_wires`: so do the rounds, until no column holds more than two
  bits.
-/
import Datapath.Proofs.BitHeap.Wiring

namespace Datapath

variable {t : Target} {A : Set SignalId} {nodes nodes' : List Compressor} {b b' b₁ : Builder}

/-- Steps that emit compressors over the signals of `A`: they are wired, and
what is known after them is declared. -/
structure Wires (b : Builder) (A : Set SignalId) (nodes : List Compressor) (b' : Builder) :
    Prop where
  later : b ≤ b'
  wired : Wired A nodes
  declared : ∀ id ∈ grown A nodes, b'.Declares id

lemma Wires.none (hA : ∀ id ∈ A, b.Declares id) : Wires b A [] b :=
  ⟨le_rfl, trivial, by rwa [grown_nil]⟩

lemma Wires.append (h : Wires b A nodes b₁) (h' : Wires b₁ (grown A nodes) nodes' b') :
    Wires b A (nodes ++ nodes') b' :=
  ⟨h.later.trans h'.later, wired_append.mpr ⟨h.wired, h'.wired⟩,
    by rw [grown_append]; exact h'.declared⟩

lemma readSources_rising (sources : List BitSource) : Rising (readSources sources) := by
  induction sources with
  | nil => exact .pure ()
  | cons s sources ih =>
    cases s with
    | one => exact ih
    | bit b => exact (Build.read_rising _).bind fun _ => ih

/-- A compressor over known signals is wired, and its outputs count its
inputs. -/
lemma compressor_wires {label : String} {w : ℕ} {inputs : List HeapBit} {c : Compressed}
    (h : compressor t label w inputs b = .ok c b') (hA : ∀ id ∈ A, b.Declares id)
    (hon : ∀ x ∈ inputs, x.source.On (· ∈ A)) (hlength : inputs.length ≤ 3) :
    c.Counts inputs ∧ Wires b A [c.node] b' := by
  obtain ⟨_, b₁, hmove, h⟩ := bind_eq_ok.mp h
  obtain ⟨_, b₂, hreads, h⟩ := bind_eq_ok.mp h
  obtain ⟨input, b₃, hinput, h⟩ := bind_eq_ok.mp h
  obtain ⟨_, b₄, hadvance, h⟩ := bind_eq_ok.mp h
  obtain ⟨x, b₅, hx, h⟩ := bind_eq_ok.mp h
  obtain ⟨output, b₆, houtput, h⟩ := bind_eq_ok.mp h
  obtain ⟨r, b₇, hr, h⟩ := bind_eq_ok.mp h
  obtain ⟨_, b₈, hcomponent, h⟩ := bind_eq_ok.mp h
  obtain ⟨_, b₉, hinstance, h⟩ := bind_eq_ok.mp h
  obtain ⟨point, b₁₀, hnow, h⟩ := bind_eq_ok.mp h
  obtain ⟨rfl, rfl⟩ := pure_eq_ok.mp h
  obtain ⟨hdeclare, hnew, -⟩ := Build.declare_ok houtput
  have hbefore : b ≤ b₅ :=
    calc b ≤ b₁ := Build.moveTo_rising _ hmove
      _ ≤ b₂ := readSources_rising _ hreads
      _ ≤ b₃ := Build.declare_rising _ _ hinput
      _ ≤ b₄ := Build.advance_rising _ _ hadvance
      _ ≤ b₅ := Build.read_rising _ hx
  have hafter : b₆ ≤ b₁₀ :=
    calc b₆ ≤ b₇ := Build.read_rising _ hr
      _ ≤ b₈ := Build.addSubcomponent_rising _ hcomponent
      _ ≤ b₉ := Build.instantiate_rising _ _ _ hinstance
      _ ≤ b₁₀ := Build.now_rising hnow
  refine ⟨⟨rfl, hlength, rfl, rfl⟩, hbefore.trans (hdeclare.trans hafter), ⟨?_, ?_, trivial⟩, ?_⟩
  · exact List.forall_mem_map.mpr hon
  · exact fun hmem => hnew ((hA _ hmem).mono hbefore)
  · rintro id (hid | ⟨node, hnode, rfl⟩)
    · exact (hA id hid).mono (hbefore.trans (hdeclare.trans hafter))
    · obtain rfl := List.mem_singleton.mp hnode
      exact (Build.declares_of_declare houtput).mono hafter

namespace Round

variable {r : Round}

/-- Full adders take three bits at a time, until at most two are left. -/
lemma fullAdders_length {w k : ℕ} {bits left : List HeapBit} {cs : List Compressed}
    (h : r.fullAdders w k bits b = .ok (cs, left) b') :
    bits.length = 3 * cs.length + left.length ∧ left.length ≤ 2 := by
  induction k, bits using fullAdders.induct generalizing b cs with
  | case1 k x y z rest ih =>
    obtain ⟨c, b₁, -, h⟩ := bind_eq_ok.mp h
    obtain ⟨⟨cs', left'⟩, b₂, hcs, h⟩ := bind_eq_ok.mp h
    obtain ⟨heq, rfl⟩ := pure_eq_ok.mp h
    cases heq
    obtain ⟨hlength, hleft⟩ := ih hcs
    simp only [List.length_cons, hlength]
    omega
  | case2 k bits hshort =>
    rw [fullAdders] at h
    · obtain ⟨heq, rfl⟩ := pure_eq_ok.mp h
      cases heq
      refine ⟨by simp, ?_⟩
      match left, hshort with
      | [], _ => simp
      | [_], _ => simp
      | [_, _], _ => simp
      | x :: y :: z :: rest, hshort => exact (hshort x y z rest rfl).elim
    · exact hshort

/-- Full adders over known signals compress all but the bits that are left. -/
lemma fullAdders_wires {w k : ℕ} {bits left : List HeapBit} {cs : List Compressed}
    (h : r.fullAdders w k bits b = .ok (cs, left) b') (hA : ∀ id ∈ A, b.Declares id)
    (hon : ∀ x ∈ bits, x.source.On (· ∈ A)) :
    Compresses cs bits left ∧ Wires b A (cs.map (·.node)) b' := by
  induction k, bits using fullAdders.induct generalizing A b cs with
  | case1 k x y z rest ih =>
    obtain ⟨c, b₁, hc, h⟩ := bind_eq_ok.mp h
    obtain ⟨⟨cs', left'⟩, b₂, hcs, h⟩ := bind_eq_ok.mp h
    obtain ⟨heq, rfl⟩ := pure_eq_ok.mp h
    cases heq
    obtain ⟨hx, hy, hz, hrest⟩ : x.source.On (· ∈ A) ∧ y.source.On (· ∈ A) ∧
        z.source.On (· ∈ A) ∧ ∀ u ∈ rest, u.source.On (· ∈ A) := by
      simpa only [List.forall_mem_cons] using hon
    obtain ⟨hcounts, hwires⟩ := compressor_wires hc hA (by simp [hx, hy, hz]) le_rfl
    obtain ⟨hcompresses, hwires'⟩ :=
      ih hcs hwires.declared fun u hu => (hrest u hu).mono fun id hid => subset_grown hid
    exact ⟨.step hcounts hcompresses, hwires.append hwires'⟩
  | case2 k bits hshort =>
    rw [fullAdders] at h
    · obtain ⟨heq, rfl⟩ := pure_eq_ok.mp h
      cases heq
      exact ⟨.done _, .none hA⟩
    · exact hshort

/-- The compressors of a column compress its bits in some order. What a tall
column loses is more than what comes of it. -/
lemma reduceColumn_wires {w : ℕ} {carries column left : List HeapBit} {cs : List Compressed}
    (h : r.reduceColumn w carries column b = .ok (cs, left) b') (hA : ∀ id ∈ A, b.Declares id)
    (hon : ∀ x ∈ column, x.source.On (· ∈ A)) :
    Compresses cs (HeapBit.sorted column) left ∧
      2 * cs.length + left.length + (if 2 < column.length then 1 else 0) ≤ column.length ∧
      Wires b A (cs.map (·.node)) b' := by
  obtain ⟨⟨cs', left'⟩, b₁, hfull, h⟩ := bind_eq_ok.mp h
  have horder : (HeapBit.sorted column).Perm column := List.mergeSort_perm _ _
  have hbits : ∀ x ∈ HeapBit.sorted column, x.source.On (· ∈ A) := fun x hx =>
    hon x (horder.subset hx)
  obtain ⟨hcompresses, hwires⟩ := fullAdders_wires hfull hA hbits
  obtain ⟨hlength, hleft⟩ := fullAdders_length hfull
  rw [horder.length_eq] at hlength
  dsimp only at h
  split_ifs at h with hhalf
  · obtain ⟨c, b₂, hc, h⟩ := bind_eq_ok.mp h
    obtain ⟨heq, rfl⟩ := pure_eq_ok.mp h
    cases heq
    have hleftOn : ∀ x ∈ left', x.source.On (· ∈ grown A (cs'.map (·.node))) := fun x hx =>
      (hbits x (hcompresses.left_subset hx)).mono fun id hid => subset_grown hid
    obtain ⟨hcounts, hwires'⟩ := compressor_wires hc hwires.declared hleftOn (by omega)
    have hhalfAdder : Compresses [c] left' [] := by
      simpa using Compresses.step hcounts (.done [])
    refine ⟨hcompresses.append hhalfAdder, ?_, ?_⟩
    · simp only [List.length_append, List.length_singleton, List.length_nil]
      split_ifs <;> omega
    · rw [List.map_append]
      exact hwires.append hwires'
  · obtain ⟨heq, rfl⟩ := pure_eq_ok.mp h
    cases heq
    exact ⟨hcompresses, by split_ifs <;> omega, hwires⟩

/-- The compressors of a round do what a round does. -/
lemma reduceColumns_wires {w : ℕ} {carries : List HeapBit} {columns columns' : List (List HeapBit)}
    (h : r.reduceColumns w carries columns b = .ok (nodes, columns') b')
    (hA : ∀ id ∈ A, b.Declares id) (hon : ColumnsOn (· ∈ A) columns) :
    Reduces carries columns nodes columns' ∧ Wires b A nodes b' := by
  induction columns generalizing A b w carries nodes columns' with
  | nil =>
    obtain ⟨heq, rfl⟩ := pure_eq_ok.mp h
    cases heq
    exact ⟨.top carries, .none hA⟩
  | cons column columns ih =>
    obtain ⟨⟨cs, left⟩, b₁, hcolumn, h⟩ := bind_eq_ok.mp h
    obtain ⟨⟨others, rest⟩, b₂, hcolumns, h⟩ := bind_eq_ok.mp h
    obtain ⟨heq, rfl⟩ := pure_eq_ok.mp h
    cases heq
    obtain ⟨hfirst, hrest⟩ := List.forall_mem_cons.mp hon
    obtain ⟨hcompresses, hfewer, hwires⟩ := reduceColumn_wires hcolumn hA hfirst
    obtain ⟨hreduces, hwires'⟩ := ih hcolumns hwires.declared fun c hc x hx =>
      (hrest c hc x hx).mono fun id hid => subset_grown hid
    exact ⟨.column (List.mergeSort_perm _ _) hcompresses hfewer hreduces, hwires.append hwires'⟩

end Round

/-- The compressors of all rounds do what rounds do. Every round leaves fewer
bits, so in the end no column holds more than two. -/
lemma reduceAll_wires {tag : String} {fuel done : ℕ} {columns : List (List HeapBit)} {r : Reduction}
    (h : reduceAll t tag fuel done columns b = .ok r b') (hfuel : columns.flatten.length ≤ fuel)
    (hA : ∀ id ∈ A, b.Declares id) (hon : ColumnsOn (· ∈ A) columns) :
    Rounds columns r.compressors r.columns ∧ (∀ column ∈ r.columns, column.length ≤ 2) ∧
      Wires b A r.compressors b' ∧ ColumnsOn (· ∈ grown A r.compressors) r.columns := by
  induction fuel generalizing A b done columns r with
  | zero =>
    obtain ⟨rfl, rfl⟩ := pure_eq_ok.mp h
    refine ⟨.done _, fun column hcolumn => ?_, .none hA, by rwa [grown_nil]⟩
    have hle : column.length ≤ columns.flatten.length :=
      (List.sublist_flatten_of_mem hcolumn).length_le
    omega
  | succ fuel ih =>
    rw [reduceAll] at h
    split_ifs at h with htall
    · obtain ⟨⟨nodes, columns'⟩, b₁, hround, h⟩ := bind_eq_ok.mp h
      obtain ⟨r', b₂, hrest, h⟩ := bind_eq_ok.mp h
      obtain ⟨rfl, rfl⟩ := pure_eq_ok.mp h
      obtain ⟨hreduces, hwires⟩ := Round.reduceColumns_wires hround hA hon
      have hfewer := hreduces.fewer
      rw [if_pos (by simpa using htall), List.length_nil] at hfewer
      have hon' : ColumnsOn (· ∈ grown A nodes) columns' :=
        hreduces.columnsOn (fun _ hid => subset_grown hid) (fun _ hnode => output_mem_grown hnode)
          (fun _ hb => absurd hb List.not_mem_nil) hon
      obtain ⟨hrounds, hshort, hwires', hon''⟩ := ih hrest (by omega) hwires.declared hon'
      refine ⟨.round hreduces hrounds, hshort, hwires.append hwires', ?_⟩
      rw [grown_append]
      exact hon''
    · obtain ⟨rfl, rfl⟩ := pure_eq_ok.mp h
      refine ⟨.done _, ?_, .none hA, by rwa [grown_nil]⟩
      simpa using htall

end Datapath
