import LeftRight.Interleaving

/-!
# Steps and runs

What one step of an interleaving can do, told once with the conditions under which it is done,
and how a property travels along a run. Some properties are kept only while the states of the
run satisfy another one; that one is then asked for throughout the run.
-/

namespace LeftRight.System

variable {S K : Type}

/-- The version of which a writer loads the counters, before or after its switch. -/
def scanned (previous : Version) (switched : Bool) : Version :=
  if switched then previous else previous.other

/-- A property of each state that a run comes through, the first and the last included. -/
def Throughout [OrderedSet S K] (P : System S K → Prop) (actions : List (Action K))
    (s : System S K) : Prop :=
  ∀ before, before <+: actions → ∀ t, s.run before = some t → P t

@[simp] theorem setReader_same (thread : Nat) (phase : ReaderPhase) (s : System S K) :
    (s.setReader thread phase).readers thread = phase := by simp [setReader]

theorem setReader_of_ne {thread other : Nat} (h : other ≠ thread) (phase : ReaderPhase)
    (s : System S K) : (s.setReader thread phase).readers other = s.readers other := by
  simp [setReader, h]

section Drains

variable {change : Change K} {visible : Side} {previous : Version} {switched : Bool} {slot : Nat}
  {s : System S K}

theorem drainStep_of_occupied
    (h : s.gate.indicator.count (scanned previous switched) slot ≠ 0) :
    s.drainStep change visible previous switched slot =
      .draining change visible previous switched 0 := by
  rw [drainStep, ← scanned, if_neg h]

theorem drainStep_of_more (h : s.gate.indicator.count (scanned previous switched) slot = 0)
    (hmore : slot + 1 < s.gate.indicator.size) :
    s.drainStep change visible previous switched slot =
      .draining change visible previous switched (slot + 1) := by
  rw [drainStep, ← scanned, if_pos h, if_pos hmore]

/-- After the last slot the writer goes on to what follows the drain. -/
theorem drainStep_of_last (h : s.gate.indicator.count (scanned previous switched) slot = 0)
    (hlast : s.gate.indicator.size ≤ slot + 1) :
    s.drainStep change visible previous switched slot =
      if switched then .replaying change visible else .switching change visible previous := by
  rw [drainStep, ← scanned, if_pos h, if_neg (Nat.not_lt.mpr hlast)]

end Drains

variable [OrderedSet S K]

/-- The steps that can be taken, with what each of them needs and does. -/
inductive Moves (s : System S K) : Action K → System S K → Prop
  /-- A reader learns the current version. -/
  | announce {thread slot : Nat} (outside : s.readers thread = .outside)
      (inRange : slot < s.gate.indicator.size) :
      Moves s (.announce thread slot)
        (s.setReader thread (.announced slot s.gate.indicator.current))
  /-- A reader is counted. -/
  | count {thread slot : Nat} {version : Version}
      (announced : s.readers thread = .announced slot version) :
      Moves s (.count thread)
        ((s.adjust slot version (· + 1)).setReader thread (.counted slot version))
  /-- A reader learns its side. -/
  | select {thread slot : Nat} {version : Version}
      (counted : s.readers thread = .counted slot version) :
      Moves s (.select thread)
        (s.setReader thread (.looking slot version s.gate.selector s.published.length))
  /-- A reader looks at its copy. -/
  | look {thread : Nat} (looking : (s.sight thread).isSome) : Moves s (.look thread) s
  /-- A reader leaves. -/
  | depart {thread slot : Nat} {version : Version} {side : Side} {since : Nat}
      (looking : s.readers thread = .looking slot version side since) :
      Moves s (.depart thread) ((s.adjust slot version (· - 1)).setReader thread .outside)
  /-- A writer gets its turn. -/
  | start {change : Change K} (idle : s.writer = .idle) :
      Moves s (.start change) { s with writer := .begun change }
  /-- The writer learns the visible side. -/
  | begin {change : Change K} (begun : s.writer = .begun change) :
      Moves s .advance { s with writer := .changing change s.gate.selector }
  /-- The change of the hidden copy has an effect. -/
  | effect {change : Change K} {visible : Side} {copy : S}
      (changing : s.writer = .changing change visible)
      (applied : OrderedSet.apply change (s.copies.get visible.other) = (.ok true, copy)) :
      Moves s .advance { s with
        writer := .publishing change visible
        copies := s.copies.set visible.other copy }
  /-- The change of the hidden copy has no effect or breaks off, and ends the write. -/
  | refuse {change : Change K} {visible : Side} {outcome : Except Fault Bool} {copy : S}
      (changing : s.writer = .changing change visible)
      (applied : OrderedSet.apply change (s.copies.get visible.other) = (outcome, copy))
      (ineffective : outcome ≠ .ok true) :
      Moves s .advance { s with writer := .idle, copies := s.copies.set visible.other copy }
  /-- The hidden copy becomes the visible one. -/
  | publish {change : Change K} {visible : Side}
      (publishing : s.writer = .publishing change visible) :
      Moves s .advance { s with
        writer := .toggling change visible
        gate := s.gate.publish visible.other
        published := s.published ++ [change] }
  /-- The writer learns the current version. -/
  | toggle {change : Change K} {visible : Side} (toggling : s.writer = .toggling change visible) :
      Moves s .advance
        { s with writer := .draining change visible s.gate.indicator.current false 0 }
  /-- A counter is not zero, and the scan starts again. -/
  | rescan {change : Change K} {visible : Side} {previous : Version} {switched : Bool}
      {slot : Nat} (draining : s.writer = .draining change visible previous switched slot)
      (occupied : s.gate.indicator.count (scanned previous switched) slot ≠ 0) :
      Moves s .advance { s with writer := .draining change visible previous switched 0 }
  /-- A counter is zero, and the scan goes on to the next slot. -/
  | pass {change : Change K} {visible : Side} {previous : Version} {switched : Bool}
      {slot : Nat} (draining : s.writer = .draining change visible previous switched slot)
      (empty : s.gate.indicator.count (scanned previous switched) slot = 0)
      (more : slot + 1 < s.gate.indicator.size) :
      Moves s .advance
        { s with writer := .draining change visible previous switched (slot + 1) }
  /-- The last counter of the first drain is zero. -/
  | emptied {change : Change K} {visible : Side} {previous : Version} {slot : Nat}
      (draining : s.writer = .draining change visible previous false slot)
      (empty : s.gate.indicator.count previous.other slot = 0)
      (last : s.gate.indicator.size ≤ slot + 1) :
      Moves s .advance { s with writer := .switching change visible previous }
  /-- The writer lets new readers arrive under the other version. -/
  | switch {change : Change K} {visible : Side} {previous : Version}
      (switching : s.writer = .switching change visible previous) :
      Moves s .advance { s with
        writer := .draining change visible previous true 0
        gate := s.gate.switch previous.other }
  /-- The last counter of the second drain is zero. -/
  | drained {change : Change K} {visible : Side} {previous : Version} {slot : Nat}
      (draining : s.writer = .draining change visible previous true slot)
      (empty : s.gate.indicator.count previous slot = 0)
      (last : s.gate.indicator.size ≤ slot + 1) :
      Moves s .advance { s with writer := .replaying change visible }
  /-- The other copy is changed too, and the write ends. -/
  | replay {change : Change K} {visible : Side}
      (replaying : s.writer = .replaying change visible) :
      Moves s .advance { s with
        writer := .idle
        copies := s.copies.set visible (OrderedSet.apply change (s.copies.get visible)).2 }

/-- A writer that drains does one of the things that a drain can do. -/
theorem moves_drainStep {change : Change K} {visible : Side} {previous : Version}
    {switched : Bool} {slot : Nat} {s : System S K}
    (h : s.writer = .draining change visible previous switched slot) :
    s.Moves .advance { s with writer := s.drainStep change visible previous switched slot } := by
  by_cases hempty : s.gate.indicator.count (scanned previous switched) slot = 0
  · by_cases hmore : slot + 1 < s.gate.indicator.size
    · rw [drainStep_of_more hempty hmore]
      exact .pass h hempty hmore
    · have hlast := Nat.le_of_not_lt hmore
      rw [drainStep_of_last hempty hlast]
      cases switched with
      | false => exact .emptied h hempty hlast
      | true => exact .drained h hempty hlast
  · rw [drainStep_of_occupied hempty]
    exact .rescan h hempty

/-- The writer does one of the things that a writer can do. -/
theorem moves_of_advance {s t : System S K} (h : s.advance = some t) : s.Moves .advance t := by
  unfold advance at h
  cases hw : s.writer with
  | idle => simp [hw] at h
  | begun change =>
    simp only [hw, Option.some.injEq] at h
    exact h ▸ .begin hw
  | changing change visible =>
    rcases happlied : OrderedSet.apply change (s.copies.get visible.other) with ⟨outcome, copy⟩
    rcases outcome with fault | _ | _ <;>
      simp only [hw, happlied, Option.some.injEq] at h
    · exact h ▸ .refuse hw happlied (by simp)
    · exact h ▸ .refuse hw happlied (by simp)
    · exact h ▸ .effect hw happlied
  | publishing change visible =>
    simp only [hw, Option.some.injEq] at h
    exact h ▸ .publish hw
  | toggling change visible =>
    simp only [hw, Option.some.injEq] at h
    exact h ▸ .toggle hw
  | draining change visible previous switched slot =>
    simp only [hw, Option.some.injEq] at h
    exact h ▸ moves_drainStep hw
  | switching change visible previous =>
    simp only [hw, Option.some.injEq] at h
    exact h ▸ .switch hw
  | replaying change visible =>
    simp only [hw, Option.some.injEq] at h
    exact h ▸ .replay hw

/-- A step is one of those that can be taken. -/
theorem moves_of_step {s t : System S K} {a : Action K} (h : s.step a = some t) :
    s.Moves a t := by
  cases a with
  | announce thread slot =>
    simp only [step, Option.ite_none_right_eq_some, Option.some.injEq] at h
    obtain ⟨⟨houtside, hslot⟩, rfl⟩ := h
    exact .announce houtside hslot
  | count thread =>
    cases hr : s.readers thread with
    | announced slot version =>
      simp only [step, hr, Option.some.injEq] at h
      exact h ▸ .count hr
    | _ => simp [step, hr] at h
  | select thread =>
    cases hr : s.readers thread with
    | counted slot version =>
      simp only [step, hr, Option.some.injEq] at h
      exact h ▸ .select hr
    | _ => simp [step, hr] at h
  | look thread =>
    simp only [step, Option.ite_none_right_eq_some, Option.some.injEq] at h
    obtain ⟨hlooking, rfl⟩ := h
    exact .look hlooking
  | depart thread =>
    cases hr : s.readers thread with
    | looking slot version side since =>
      simp only [step, hr, Option.some.injEq] at h
      exact h ▸ .depart hr
    | _ => simp [step, hr] at h
  | start change =>
    cases hw : s.writer with
    | idle =>
      simp only [step, hw, Option.some.injEq] at h
      exact h ▸ .start hw
    | _ => simp [step, hw] at h
  | advance => exact moves_of_advance h

theorem run_cons (a : Action K) (as : List (Action K)) (s : System S K) :
    s.run (a :: as) = (s.step a).bind (run as) := by
  rw [run, List.foldlM_cons]
  rfl

/-- A run that starts with a step takes it and then runs on. -/
theorem run_cons_eq_some {a : Action K} {as : List (Action K)} {s t : System S K}
    (h : s.run (a :: as) = some t) : ∃ u, s.Moves a u ∧ u.run as = some t := by
  rw [run_cons, Option.bind_eq_some_iff] at h
  obtain ⟨u, hu, h⟩ := h
  exact ⟨u, moves_of_step hu, h⟩

/-- A run can be cut in two anywhere. -/
theorem run_append_eq_some {as bs : List (Action K)} {s t : System S K} :
    s.run (as ++ bs) = some t ↔ ∃ u, s.run as = some u ∧ u.run bs = some t := by
  rw [run_append, Option.bind_eq_some_iff]

section Throughout

variable {P : System S K → Prop} {actions : List (Action K)} {s t : System S K}

/-- What holds throughout a run holds of the state in which it starts. -/
theorem Throughout.start (h : s.Throughout P actions) : P s :=
  h [] (List.nil_prefix) s rfl

/-- What holds throughout a run holds throughout what is left of it after a step. -/
theorem Throughout.tail {a : Action K} (h : s.Throughout P (a :: actions))
    (hstep : s.step a = some t) : t.Throughout P actions := by
  intro before hbefore u hu
  refine h (a :: before) (List.cons_prefix_cons.mpr ⟨rfl, hbefore⟩) u ?_
  rw [run_cons, hstep]
  exact hu

/-- What holds throughout a run holds throughout a shorter one. -/
theorem Throughout.take {before : List (Action K)} (h : s.Throughout P actions)
    (hbefore : before <+: actions) : s.Throughout P before :=
  fun first hfirst => h first (hfirst.trans hbefore)

end Throughout

/-- What holds throughout a run holds throughout its rest. -/
theorem Throughout.drop {P : System S K → Prop} {as bs : List (Action K)} {s t : System S K}
    (h : s.Throughout P (as ++ bs)) (hrun : s.run as = some t) : t.Throughout P bs := by
  intro before hbefore u hu
  exact h (as ++ before) (List.prefix_append_right_inj as |>.mpr hbefore) u
    (run_append_eq_some.mpr ⟨t, hrun, hu⟩)

/-- What holds at first and is kept by each move between states of a run holds after it. -/
theorem Throughout.induction {P Q : System S K → Prop} {actions : List (Action K)}
    (hmoves : ∀ s a t, a ∈ actions → Q s → P s → s.Moves a t → P t) {s t : System S K}
    (hQ : s.Throughout Q actions) (hs : P s) (h : s.run actions = some t) : P t := by
  induction actions generalizing s with
  | nil => exact Option.some.inj h ▸ hs
  | cons a as ih =>
    rw [run_cons, Option.bind_eq_some_iff] at h
    obtain ⟨u, hu, h⟩ := h
    have hP : P u := hmoves s a u (List.mem_cons_self ..) hQ.start hs (moves_of_step hu)
    refine ih (fun s b t hb => hmoves s b t (List.mem_cons_of_mem a hb)) (hQ.tail hu) hP h

end LeftRight.System
