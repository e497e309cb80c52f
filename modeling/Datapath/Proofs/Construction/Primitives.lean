/-
What the steps of a construction come to.

* `Build.moveTo_comes`, `Build.read_comes`, `Build.declare_comes`, …: what each
  step asks for, and what it comes to. Of a construction in order no step fails
  but with an error that is due.
* `Build.element_comes`: an element behind its delay.
* `Builder.Complete.causal`, `Builder.Complete.timed`: what is finished in order
  holds what it promises.
-/
import Datapath.Proofs.Construction.Outcome

namespace Datapath

variable {t : Target} {n m : ℕ} {p p' : Instant} {N S : Set String} {b b' : Builder}
  {id : SignalId} {excused : ConsistencyFault → Prop}

/-! ### Moving in time -/

/-- A schedule of which nothing but the point in time changes. -/
lemma Builder.Orderly.moved (hb : b.Orderly t n p) (hadmits : t.Admits p') :
    b.Reaches t n p' ∅ { b with schedule := b.schedule.moveTo p' } where
  orderly := { hb with now := rfl, admits := hadmits }
  later := Schedule.moveTo_le _ _
  names _ hname := .inl hname
  uids := le_rfl
  defines _ hdefines := hdefines

/-- An element takes longer than a period, or it stays in the cycle, or a register
is inserted in front of it. -/
lemma Schedule.advance_cases (delay : Delay) (what : String) (s : Schedule) :
    advance delay what s = .error (.timing what delay.seconds s.period) s ∨
    (∃ inserted, advance delay what s = .ok inserted
        (s.moveTo ⟨s.cycle, s.criticalPath + delay⟩)) ∧
      (s.pipelined = true → ¬ (s.criticalPath + delay).seconds > s.period) ∨
    (∃ inserted, advance delay what s = .ok inserted (s.moveTo ⟨s.cycle + 1, delay⟩)) ∧
      s.pipelined = true ∧ ¬ delay.seconds > s.period ∧
        (s.criticalPath + delay).seconds > s.period := by
  rw [advance]
  split_ifs with hpipelined hlong hlate
  · exact .inr (.inl ⟨⟨_, rfl⟩, fun h => by simp [h] at hpipelined⟩)
  · exact .inl rfl
  · exact .inr (.inr ⟨⟨_, rfl⟩, by simpa using hpipelined, hlong, hlate⟩)
  · exact .inr (.inl ⟨⟨_, rfl⟩, fun _ => hlate⟩)

namespace Build

variable {name label component what : String} {width : ℕ} {delay : Delay} {α : Type}

lemma moveTo_comes (hb : b.Orderly t n p) (hadmits : t.Admits p') :
    Comes (BuildError.Due t excused) (fun _ b' => b.Reaches t n p' ∅ b') (moveTo p' b) :=
  hb.moved hadmits

/-- The current point in time is the one at which the construction is. -/
lemma now_bind {β : Type} {f : Instant → Build β} {R : β → Builder → Prop} (hb : b.Orderly t n p)
    (h : Comes (BuildError.Due t excused) R (f p b)) :
    Comes (BuildError.Due t excused) R ((now >>= f) b) := by
  obtain rfl := hb.now
  exact h

/-- The point in time stays as it is, or a new cycle starts. -/
lemma nextCycle_comes (hb : b.Orderly t n p) :
    Comes (BuildError.Due t excused) (fun _ b' => ∃ p', p.cycle ≤ p'.cycle ∧ b.Reaches t n p' ∅ b')
      (nextCycle b) := by
  change ∃ p', p.cycle ≤ p'.cycle ∧ b.Reaches t n p' ∅ { b with schedule := b.schedule.nextCycle }
  rw [Schedule.nextCycle]
  split
  case isTrue hpipelined =>
    rw [hb.pipelined] at hpipelined
    refine ⟨⟨b.schedule.cycle + 1, 0.0⟩, ?_,
      hb.moved ⟨Target.fits_zero, Target.hasCycle_of_pipelined hpipelined⟩⟩
    exact (congrArg Instant.cycle hb.now).ge.trans (Nat.le_succ _)
  case isFalse => exact ⟨p, le_rfl, .refl hb⟩

/-- An element that fits in a period at all fits where it is placed. Where
nothing is spent of the cycle it stays in the cycle. -/
lemma advance_comes (hb : b.Orderly t n p) :
    Comes (BuildError.Due t excused)
      (fun _ b' => ∃ p', p.cycle ≤ p'.cycle ∧ (p.Unspent → p'.cycle = p.cycle) ∧
        b.Reaches t n p' ∅ b') (advance delay what b) := by
  obtain rfl := hb.now
  rw [advance, schedule]
  dsimp only
  rcases Schedule.advance_cases delay what b.schedule with
    herror | ⟨⟨inserted, hok⟩, hfits⟩ | ⟨⟨inserted, hok⟩, hpipelined, hfits, hlate⟩
  · rw [herror]
    trivial
  · rw [hok]
    rw [hb.period, hb.pipelined] at hfits
    exact ⟨⟨b.schedule.cycle, b.schedule.criticalPath + delay⟩, le_rfl, fun _ => rfl,
      hb.moved ⟨fun hpipelined _ => hfits hpipelined, hb.admits.cycle⟩⟩
  · rw [hok]
    rw [hb.pipelined] at hpipelined
    rw [hb.period] at hfits hlate
    refine ⟨⟨b.schedule.cycle + 1, delay⟩, Nat.le_succ _, fun hunspent => ?_,
      hb.moved ⟨fun _ _ => hfits, Target.hasCycle_of_pipelined hpipelined⟩⟩
    rw [show b.schedule.criticalPath = 0.0 from hunspent] at hlate
    exact absurd hlate (Delay.fits_zero_add hfits)

/-- A signal that is there can be looked up. -/
lemma signal_comes {E : BuildError → Prop} {g : Signal} (hg : b.schedule.signal? id = some g) :
    Comes E (fun g' b' => g = g' ∧ b = b') (schedule (Schedule.signal id) b) := by
  rw [schedule_eq_ok.mpr ⟨b.schedule, Schedule.signal_eq_ok.mpr ⟨hg, rfl⟩, rfl⟩]
  exact ⟨rfl, rfl⟩

/-- Of its signal, steps need the width. -/
lemma signal_bind {β : Type} {f : Signal → Build β} {R : β → Builder → Prop}
    (hid : b.HasWidth id width)
    (h : ∀ g, g.width = width → Comes (BuildError.Due t excused) R (f g b)) :
    Comes (BuildError.Due t excused) R ((schedule (Schedule.signal id) >>= f) b) := by
  obtain ⟨g, hg, hwidth⟩ := hid
  refine (signal_comes hg).bind ?_
  rintro _ _ ⟨rfl, rfl⟩
  exact h g hwidth

/-- Waiting for a signal leads to a point in time at which it is there. -/
lemma syncTo_comes (hb : b.Orderly t n p) (hid : b.Has id m) :
    Comes (BuildError.Due t excused)
      (fun _ b' => ∃ p', p.cycle ≤ p'.cycle ∧ p'.cycle ≤ max p.cycle m ∧ b'.Has id p'.cycle ∧
        b.Reaches t n p' ∅ b') (syncTo id b) := by
  obtain ⟨g, hg, hcycle⟩ := hid
  obtain rfl := hb.now
  have hadmits : t.Admits g.made := hb.signals g (Array.mem_of_getElem? hg)
  have hstep : Schedule.syncTo id b.schedule = .ok () (
      if b.schedule.cycle < g.cycle then b.schedule.moveTo ⟨g.cycle, g.criticalPath⟩
      else if g.cycle = b.schedule.cycle then
        b.schedule.moveTo ⟨b.schedule.cycle, b.schedule.criticalPath.greater g.criticalPath⟩
      else b.schedule) :=
    bind_eq_ok.mpr ⟨g, b.schedule, Schedule.signal_eq_ok.mpr ⟨hg, rfl⟩, rfl⟩
  rw [syncTo, schedule]
  dsimp only
  rw [hstep]
  split_ifs with hbefore hsame
  · exact ⟨⟨g.cycle, g.criticalPath⟩, hbefore.le, le_max_of_le_right hcycle,
      ⟨g, hg, le_rfl⟩, hb.moved hadmits⟩
  · exact ⟨⟨b.schedule.cycle, b.schedule.criticalPath.greater g.criticalPath⟩, le_rfl,
      le_max_left _ _, ⟨g, hg, hsame.le⟩,
      hb.moved ⟨Target.fits_greater hb.admits.fits hadmits.fits, hb.admits.cycle⟩⟩
  · exact ⟨b.schedule.now, le_rfl, le_max_left _ _, ⟨g, hg, Nat.not_lt.mp hbefore⟩, .refl hb⟩

/-- Going back to a signal leads to the point in time at which it is produced. -/
lemma rewindTo_comes (hb : b.Orderly t n p) (hid : b.Has id m) :
    Comes (BuildError.Due t excused)
      (fun _ b' => ∃ p', p'.cycle ≤ m ∧ b'.Has id p'.cycle ∧ b.Reaches t n p' ∅ b')
      (schedule (Schedule.rewindTo id) b) := by
  obtain ⟨g, hg, hcycle⟩ := hid
  have hstep : Schedule.rewindTo id b.schedule =
      .ok () (b.schedule.moveTo ⟨g.cycle, g.criticalPath⟩) :=
    bind_eq_ok.mpr ⟨g, b.schedule, Schedule.signal_eq_ok.mpr ⟨hg, rfl⟩, rfl⟩
  rw [schedule]
  dsimp only
  rw [hstep]
  exact ⟨⟨g.cycle, g.criticalPath⟩, hcycle, ⟨g, hg, le_rfl⟩,
    hb.moved (hb.signals g (Array.mem_of_getElem? hg))⟩

end Build

/-! ### Declaring and using signals -/

/-- Uses are over as before in a later state. -/
lemma UsedBy.later {events : Array Event} {s s' : Schedule} (h : UsedBy events s.signals.items n)
    (hle : s ≤ s') : UsedBy events s'.signals.items n := by
  intro use huse
  obtain ⟨g, hg, hcycle⟩ := h use huse
  obtain ⟨g', hg', hage⟩ := hle use.signal g hg
  exact ⟨g', hg', by rwa [hage.cycle]⟩

/-- Records that are no uses do not matter. -/
lemma UsedBy.push {events : Array Event} {signals : Array Signal} {e : Event}
    (h : UsedBy events signals n) (he : ∀ use, e ≠ .read use) :
    UsedBy (events.push e) signals n := by
  intro use huse
  rcases Array.mem_push.mp huse with huse | rfl
  · exact h use huse
  · exact absurd rfl (he use)

namespace Build

variable {name label component what : String} {width : ℕ} {delay : Delay} {α : Type}

/-- A new name can be declared, at a point in time that fits. -/
lemma declareAt_ok {kind : SignalKind} {s : Schedule} (hfree : name ∉ s.names) :
    Schedule.declareAt name width kind p s = .ok s.signals.size
      { s with
        signals := (s.signals.alloc ⟨name, width, kind, p.cycle, p.criticalPath, 0⟩).2
        names := s.names.insert name s.signals.size } := by
  have hnew : s.names.contains name = false := by
    rwa [← Bool.not_eq_true, Std.HashMap.contains_iff_mem]
  rw [Schedule.declareAt, hnew]
  rfl

/-- A construction with one more signal is in order if the target has the point in
time at which it is made. -/
lemma declared_reaches {kind : SignalKind} {ports : Array Port} (hb : b.Orderly t n p)
    (hadmits : t.Admits p') (hname : name ∈ N) :
    b.Reaches t n p N { b with
      schedule := { b.schedule with
        signals :=
          (b.schedule.signals.alloc ⟨name, width, kind, p'.cycle, p'.criticalPath, 0⟩).2
        names := b.schedule.names.insert name b.schedule.signals.size }
      ports, events := b.events.push (.declare b.schedule.signals.size) } where
  orderly :=
    { hb with
      signals := fun g hg => (Array.mem_push.mp hg).elim (hb.signals g) fun h => h ▸ hadmits
      usedBy := (hb.usedBy.later (Schedule.le_alloc b.schedule _ _)).push fun _ h => by cases h }
  later := Schedule.le_alloc _ _ _
  names _ h := (Std.HashMap.mem_insert.mp h).elim (fun h => .inr (eq_of_beq h ▸ hname)) .inl
  uids := le_rfl
  defines _ hdefines := hdefines

/-- A free name makes a signal now. -/
lemma declare_comes (hb : b.Orderly t n p) (hname : name ∈ N) (hfree : b.Free N) :
    Comes (BuildError.Due t excused)
      (fun id b' => b'.MadeIn id p.cycle ∧ b'.HasWidth id width ∧ b.Reaches t n p N b')
      (declare name width b) := by
  obtain rfl := hb.now
  have hdeclare : Schedule.declare name width b.schedule = .ok b.schedule.signals.size _ :=
    bind_eq_ok.mpr ⟨b.schedule, b.schedule, rfl, declareAt_ok (hfree name hname)⟩
  have hstep : declare name width b = .ok b.schedule.signals.size _ :=
    bind_eq_ok.mpr ⟨_, _, schedule_eq_ok.mpr ⟨_, hdeclare, rfl⟩, rfl⟩
  rw [hstep]
  exact ⟨⟨_, Arena.get?_alloc_self _ _, rfl⟩, ⟨_, Arena.get?_alloc_self _ _, rfl⟩,
    declared_reaches hb hb.admits hname⟩

/-- A signal that is there can be used, and it lives until then. -/
lemma read_ok {s : Schedule} {g : Signal} (hg : s.signal? id = some g)
    (hcycle : g.cycle ≤ s.cycle) :
    Schedule.read id s = .ok ⟨id, g.name, s.cycle - g.cycle⟩
      { s with signals := s.signals.update id fun g' =>
        { g' with lifespan := max g'.lifespan (s.cycle - g.cycle) } } := by
  rw [Schedule.read, show s.signals.get? id = some g from hg]
  exact if_neg (Nat.not_lt.mpr hcycle)

/-- A construction with one more use is in order if the use is over in time. -/
lemma used_reaches {g : Signal} (hb : b.Orderly t n p) (hg : b.schedule.signal? id = some g)
    (hcycle : g.cycle ≤ b.schedule.cycle) (hn : p.cycle ≤ n) :
    b.Reaches t n p ∅ { b with
      schedule := { b.schedule with signals := b.schedule.signals.update id fun g' =>
        { g' with lifespan := max g'.lifespan (b.schedule.cycle - g.cycle) } }
      events := b.events.push (.read ⟨id, g.name, b.schedule.cycle - g.cycle⟩) } := by
  have hle : b.schedule ≤ { b.schedule with signals := b.schedule.signals.update id fun g' =>
      { g' with lifespan := max g'.lifespan (b.schedule.cycle - g.cycle) } } :=
    Schedule.le_update _ _ _
  refine ⟨{ hb with signals := ?_, usedBy := ?_ }, hle, fun _ hname => .inl hname, le_rfl,
    fun _ hdefines => hdefines⟩
  · intro g' hg'
    obtain ⟨i, hi⟩ := Array.mem_iff_getElem?.mp hg'
    change (b.schedule.signals.items.modify id _)[i]? = some g' at hi
    rw [Array.getElem?_modify] at hi
    split at hi
    · obtain ⟨g₀, hg₀, rfl⟩ := Option.map_eq_some_iff.mp hi
      exact hb.signals g₀ (Array.mem_of_getElem? hg₀)
    · exact hb.signals g' (Array.mem_of_getElem? hi)
  · intro use huse
    rcases Array.mem_push.mp huse with huse | huse
    · exact hb.usedBy.later hle use huse
    · cases huse
      obtain ⟨g', hg', hage⟩ := hle id g hg
      refine ⟨g', hg', ?_⟩
      rw [hage.cycle]
      change g.cycle + (b.schedule.cycle - g.cycle) ≤ n
      rw [Nat.add_sub_of_le hcycle]
      exact (congrArg Instant.cycle hb.now).le.trans hn

/-- A signal that is there can be used. -/
lemma read_comes (hb : b.Orderly t n p) (hid : b.Has id p.cycle) (hn : p.cycle ≤ n) :
    Comes (BuildError.Due t excused) (fun _ b' => b.Reaches t n p ∅ b') (read id b) := by
  obtain ⟨g, hg, hcycle⟩ := hid
  have hthere : g.cycle ≤ b.schedule.cycle := hcycle.trans (congrArg Instant.cycle hb.now).ge
  have hstep : read id b = .ok ⟨id, g.name, b.schedule.cycle - g.cycle⟩ _ :=
    bind_eq_ok.mpr ⟨_, _, schedule_eq_ok.mpr ⟨_, read_ok hg hthere, rfl⟩, rfl⟩
  rw [hstep]
  exact used_reaches hb hg hthere hn

/-- An input is there from the start. -/
lemma addInput_comes (hb : b.Orderly t n p) (hname : name ∈ N) (hfree : b.Free N) :
    Comes (BuildError.Due t excused)
      (fun id b' => b'.Has id 0 ∧ b'.Prompt id ∧ b'.HasWidth id width ∧ b.Reaches t n p N b')
      (addInput name width b) := by
  have hstep : addInput name width b = .ok b.schedule.signals.size _ :=
    bind_eq_ok.mpr ⟨_, _, schedule_eq_ok.mpr ⟨_, declareAt_ok (hfree name hname), rfl⟩, rfl⟩
  rw [hstep]
  exact ⟨⟨_, Arena.get?_alloc_self _ _, le_rfl⟩, ⟨_, Arena.get?_alloc_self _ _, rfl⟩,
    ⟨_, Arena.get?_alloc_self _ _, rfl⟩, declared_reaches hb Target.admits_start hname⟩

/-- An output is driven by a signal that is there, and nothing is used later. -/
lemma addOutput_comes {source : SignalId} (hb : b.Orderly t n p) (hn : n ≤ p.cycle)
    (hsource : b.Has source m) (hname : name ∈ N) (hfree : b.Free N) :
    Comes (BuildError.Due t excused) (fun _ b' => b'.Complete t)
      (addOutput name width source b) := by
  refine (syncTo_comes hb hsource).bind ?_
  rintro _ b₁ ⟨p', hle, -, ⟨g, hg, hcycle⟩, h₁⟩
  obtain rfl := h₁.orderly.now
  have hready : b₁.Orderly t b₁.schedule.cycle b₁.schedule.now := h₁.orderly.of_le (hn.trans hle)
  have hused := used_reaches hready hg hcycle le_rfl
  have hnew : b₁.Free N := h₁.free hfree (Set.disjoint_empty _)
  have hrest : (do
      record (.read (← schedule (Schedule.read source)))
      let id ← schedule (Schedule.declareOutput name width)
      let point ← now
      addPort { name, width, direction := .output, cycle := point.cycle }
      record (.declare id)
      return id : Build SignalId) b₁ = .ok _ _ :=
    bind_eq_ok.mpr ⟨_, _, schedule_eq_ok.mpr ⟨_, read_ok hg hcycle, rfl⟩,
      bind_eq_ok.mpr ⟨_, _, rfl, bind_eq_ok.mpr ⟨_, _, schedule_eq_ok.mpr ⟨_, bind_eq_ok.mpr
        ⟨_, _, rfl, declareAt_ok (hnew name hname)⟩, rfl⟩, rfl⟩⟩⟩
  rw [hrest]
  exact ⟨_, (declared_reaches hused.orderly hused.orderly.admits hname).orderly, _,
    Array.mem_of_getElem? (Arena.get?_alloc_self _ _), rfl, rfl⟩

end Build

/-! ### Instances and numbers -/

namespace Build

variable {component label name what : String} {ports : List PortBinding} {c : Component} {width : ℕ}
  {delay : Delay} {α : Type}

/-- An element can be defined. -/
lemma addSubcomponent_comes (hb : b.Orderly t n p) (hc : c.IsElement t) :
    Comes (BuildError.Due t excused) (fun _ b' => b'.Defines c.name ∧ b.Reaches t n p ∅ b')
      (addSubcomponent c b) := by
  change Builder.Defines (ite ..) _ ∧ b.Reaches t n p ∅ (ite ..)
  split
  case isTrue hany =>
    obtain ⟨c', hc', hname⟩ := Array.any_eq_true'.mp hany
    exact ⟨⟨c', hc', eq_of_beq hname⟩, .refl hb⟩
  case isFalse =>
    have hdefines : ∀ name, b.Defines name →
        Builder.Defines { b with subcomponents := b.subcomponents.push c } name :=
      fun name ⟨c', hc', hname⟩ => ⟨c', Array.mem_push_of_mem _ hc', hname⟩
    refine ⟨⟨c, Array.mem_push_self, rfl⟩, ?_, le_refl b.schedule, fun _ hname => .inl hname,
      le_rfl, hdefines⟩
    exact
      { hb with
        elements := fun c' hc' => (Array.mem_push.mp hc').elim (hb.elements c') fun h => h ▸ hc
        instances := fun i hi => (hb.instances i hi).imp_left (hdefines _) }

/-- An instance of an element that is defined can be placed. -/
lemma instantiate_comes (hb : b.Orderly t n p) (hdefines : b.Defines component)
    (hports : ∀ q ∈ ports, q.formal ∈ formals component) :
    Comes (BuildError.Due t excused) (fun _ b' => b.Reaches t n p ∅ b')
      (instantiate component label ports b) := by
  change b.Reaches t n p ∅ { b with
    instances := b.instances.push ⟨component, label, ports, b.schedule.cycle⟩
    events := b.events.push (.instantiate b.instances.size) }
  have hcycle : p.cycle = b.schedule.cycle := congrArg Instant.cycle hb.now.symm
  refine ⟨?_, le_refl b.schedule, fun _ hname => .inl hname, le_rfl, fun _ hname => hname⟩
  exact
    { hb with
      usedBy := hb.usedBy.push fun _ h => by cases h
      instances := fun i hi => (Array.mem_push.mp hi).elim (hb.instances i) fun h => by
        subst h
        exact ⟨hdefines, hports⟩
      starts := fun i hi => (Array.mem_push.mp hi).elim (hb.starts i) fun h => by
        subst h
        exact hcycle ▸ hb.admits.cycle }

/-- An instance whose inputs are read makes a signal behind its delay. -/
lemma element_comes (hb : b.Orderly t n p) (hdefines : b.Defines component)
    (hports : ∀ q ∈ ports, q.formal ∈ formals component) (hname : name ∈ N) (hfree : b.Free N) :
    Comes (BuildError.Due t excused) (b.Makes t n p N width) ((do
      let _ ← advance delay what
      let out ← declare name width
      let _ ← instantiate component label ports
      return out : Build SignalId) b) := by
  refine (advance_comes hb).bind ?_
  rintro _ b₁ ⟨p', hle, hstays, h₁⟩
  have hfree₁ : b₁.Free N := h₁.free hfree (Set.disjoint_empty _)
  refine (declare_comes h₁.orderly hname hfree₁).bind ?_
  rintro out b₂ ⟨hout, hwidth, h₂⟩
  have h₂ := h₁.quiet.trans h₂
  refine (instantiate_comes h₂.orderly (h₂.defines _ hdefines) hports).bind fun _ b₃ h₃ => ?_
  exact .pure ⟨p', hle, hstays, hout.mono h₃.later, hwidth.mono h₃.later, h₂.trans h₃.quiet⟩

lemma diagnose_comes (hb : b.Orderly t n p) (d : Diagnostic) :
    Comes (BuildError.Due t excused) (fun _ b' => b.Reaches t n p ∅ b') (diagnose d b) :=
  ⟨{ hb with }, le_refl b.schedule, fun _ hname => .inl hname, le_rfl, fun _ hdefines => hdefines⟩

/-- Numbers that are given once are given in order. -/
lemma uniqueId_comes (hb : b.Orderly t n p) :
    Comes (BuildError.Due t excused)
      (fun k b' => k = b.nextUid ∧ b'.nextUid = k + 1 ∧ b.Reaches t n p ∅ b') (uniqueId b) :=
  ⟨rfl, rfl, { hb with }, le_refl b.schedule, fun _ hname => .inl hname, Nat.le_succ _,
    fun _ hdefines => hdefines⟩

lemma ofExcept_comes {x : Except BuildError α} (hx : ∀ e, x = .error e → e.Due t excused) :
    Comes (BuildError.Due t excused) (fun a b' => x = .ok a ∧ b = b') (ofExcept x b) := by
  cases x with
  | ok a => exact ⟨rfl, rfl⟩
  | error e => exact hx e rfl

/-- A computation without state leaves the state alone. -/
lemma ofExcept_bind {β : Type} {x : Except BuildError α} {f : α → Build β} {R : β → Builder → Prop}
    (hx : ∀ e, x = .error e → e.Due t excused)
    (h : ∀ a, x = .ok a → Comes (BuildError.Due t excused) R (f a b)) :
    Comes (BuildError.Due t excused) R ((ofExcept x >>= f) b) := by
  refine (ofExcept_comes hx).bind ?_
  rintro a _ ⟨ha, rfl⟩
  exact h a ha

end Build

/-! ### Finished operators -/

namespace Builder

variable {body : Body}

/-- Every output is there by the latency. -/
lemma cycle_le_latency {g : Signal} (hg : g ∈ b.schedule.signals.items) (hkind : g.kind = .output) :
    g.cycle ≤ (b.finishWith body).component.latency := by
  have houtput : g ∈ b.schedule.signals.items.filter (·.kind == .output) :=
    Array.mem_filter.mpr ⟨hg, by simp [hkind]⟩
  change g.cycle ≤ (b.schedule.signals.items.filter (·.kind == .output)).foldl _ 0
  rw [← Array.foldl_toList]
  exact (le_foldl_max _ _ 0).2 g (Array.mem_toList_iff.mpr houtput)

/-- All uses in a complete operator are over by its latency. -/
lemma Complete.causal (h : b.Complete t) (hreplays : b.Replays) :
    (b.finishWith body).component.Causal := by
  obtain ⟨p, hb, g, hg, hkind, hcycle⟩ := h
  exact ⟨hreplays, (hb.of_le (hcycle.ge.trans (cycle_le_latency hg hkind))).usedBy⟩

lemma Complete.timed (h : b.Complete t) : (b.finishWith body).component.Timed t := by
  obtain ⟨p, hb, -⟩ := h
  refine ⟨fun g hg => (hb.signals g hg).fits, ?_⟩
  change t.Fits (Array.foldl _ 0.0 _)
  rw [← Array.foldl_toList]
  refine Target.fits_foldl _ (fun g hg => (hb.signals g ?_).fits) Target.fits_zero
  have houtput := (Array.mem_filter.mp (Array.mem_toList_iff.mp hg)).1
  exact (Array.mem_filter.mp houtput).1

/-- Without registers, a complete operator is over in the first cycle, in which
all uses are. -/
lemma Complete.combinational (h : b.Complete t) (hreplays : b.Replays)
    (hnone : t.pipelined = false) : (b.finishWith body).component.Combinational := by
  obtain ⟨p, hb, -⟩ := h
  have hmade : ∀ g ∈ b.schedule.signals.items, g.cycle = 0 :=
    fun g hg => (hb.signals g hg).cycle hnone
  have hreads : ∀ use, .read use ∈ b.events → use.delay = 0 := by
    intro use huse
    obtain ⟨g, -, hby⟩ := hb.usedBy use huse
    have hend : p.cycle = 0 := hb.admits.cycle hnone
    omega
  have hlife : ∀ g ∈ b.schedule.signals.items, g.lifespan = 0 := by
    intro g hg
    obtain ⟨id, hid⟩ := Array.mem_iff_getElem?.mp hg
    rw [hreplays.lifespans id g hid]
    exact Nat.le_zero.mp (longestUse_le fun use huse => (hreads use huse).le)
  exact
    { signals := fun g hg => ⟨hmade g hg, hlife g hg⟩
      instances := fun i hi => hb.starts i hi hnone
      reads := hreads
      latency := by
        change Array.foldl _ 0 _ = 0
        rw [← Array.foldl_toList]
        refine Nat.le_zero.mp (foldl_max_le le_rfl fun g hg => (hmade g ?_).le)
        exact (Array.mem_filter.mp (Array.mem_toList_iff.mp hg)).1
      registerBits := Component.registerBits_eq_zero hlife }

end Builder

end Datapath
