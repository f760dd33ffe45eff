import LeftRight.Proofs.Exclusion
import LeftRight.Proofs.Lawful

/-!
# Linearizability of reads

A read happens, as a whole, when the reader learns its side: until it leaves, all that it sees
is the state that the changes published by then have made. The visible copy is always that state,
and the hidden one is behind it by at most the change that is under way. A copy changes only
while it is hidden and, by exclusion, while nobody looks at it.
-/

namespace LeftRight

open OrderedSet

/-- The change that the writer is making to a copy, and the side of the copy. -/
def WriterPhase.mutation? {K : Type} : WriterPhase K → Option (Change K × Side)
  | changing change visible => some (change, visible.other)
  | replaying change visible => some (change, visible)
  | _ => none

/-- What the hidden copy holds while these changes are published: what they have made, or that
and the change that is under way, or all but the last of them. -/
def WriterPhase.Hides {S K : Type} [OrderedSet S K] (s₀ hidden : S)
    (published : List (Change K)) : WriterPhase K → Prop
  | idle | begun _ | changing _ _ => hidden = applyAll published s₀
  | publishing change _ => apply change (applyAll published s₀) = (.ok true, hidden)
  | toggling change _ | draining change _ _ _ _ | switching change _ _ | replaying change _ =>
    ∃ before, published = before ++ [change] ∧ hidden = applyAll before s₀

namespace System

variable {S K : Type} [OrderedSet S K]

/-- Whether the change that the writer is making to a copy breaks off. -/
def BreaksOff (s : System S K) : Prop :=
  ∃ change side fault, s.writer.mutation? = some (change, side) ∧
    (apply change (s.copies.get side)).1 = .error fault

/-- The copies, and what is seen of them, are what the published changes have made. -/
structure Recorded (s₀ : S) (s : System S K) : Prop where
  /-- The visible copy has all published changes. -/
  visible : s.copies.get s.gate.selector = applyAll s.published s₀
  /-- The hidden copy goes along with the writer. -/
  hidden : s.writer.Hides s₀ (s.copies.get s.gate.selector.other) s.published
  /-- Each published change had an effect after those before it. -/
  effective : ∀ before change, before ++ [change] <+: s.published →
    (apply change (applyAll before s₀)).1 = .ok true
  /-- A reader sees the changes that were published when it learned its side. -/
  seen : ∀ thread slot v side since, s.readers thread = .looking slot v side since →
    since ≤ s.published.length ∧ s.copies.get side = applyAll (s.published.take since) s₀

/-- At rest with two equal copies nothing is published and nothing is seen. -/
theorem recorded_ofSet {s₀ : S} {g : TwinSet S K} (hcopies : g.content.copies = ⟨s₀, s₀⟩) :
    (ofSet g).Recorded s₀ := by
  have hcopy (side : Side) : (ofSet g).copies.get side = s₀ := by
    rw [ofSet, hcopies, Copies.get_same]
  refine ⟨hcopy _, hcopy _, ?_, ?_⟩
  · intro before change hprefix
    simp [ofSet] at hprefix
  · intro thread slot v side since hr
    simp [ofSet] at hr

/-- A reader that comes to a phase in which it looks at the visible copy, if at any, since all
that is published now, sees what it should. -/
theorem Recorded.setReader {s₀ : S} {s : System S K} (h : s.Recorded s₀) {thread : Nat}
    {phase : ReaderPhase} (hphase : ∀ slot v side since, phase = .looking slot v side since →
      side = s.gate.selector ∧ since = s.published.length) :
    (s.setReader thread phase).Recorded s₀ := by
  refine ⟨h.visible, h.hidden, h.effective, ?_⟩
  intro other slot v side since hr
  by_cases ho : other = thread
  · subst ho
    rw [setReader_same] at hr
    obtain ⟨rfl, rfl⟩ := hphase slot v side since hr
    refine ⟨le_rfl, ?_⟩
    change s.copies.get s.gate.selector = applyAll (s.published.take s.published.length) s₀
    rw [List.take_length]
    exact h.visible
  · rw [setReader_of_ne ho] at hr
    exact h.seen other slot v side since hr

/-- A change of a counter is not recorded. -/
theorem Recorded.adjust {s₀ : S} {s : System S K} (h : s.Recorded s₀) (slot : Nat) (v : Version)
    (f : UInt64 → UInt64) : (s.adjust slot v f).Recorded s₀ :=
  ⟨h.visible, h.hidden, h.effective, h.seen⟩

/-- A writer that goes on without a change or a publication leaves the record right. -/
theorem Recorded.setWriter {s₀ : S} {s t : System S K} (h : s.Recorded s₀)
    (hreaders : t.readers = s.readers) (hcopies : t.copies = s.copies)
    (hselector : t.gate.selector = s.gate.selector) (hpublished : t.published = s.published)
    (hhides : s.writer.Hides s₀ (s.copies.get s.gate.selector.other) s.published →
      t.writer.Hides s₀ (s.copies.get s.gate.selector.other) s.published) : t.Recorded s₀ := by
  constructor
  · rw [hcopies, hselector, hpublished]
    exact h.visible
  · rw [hcopies, hselector, hpublished]
    exact hhides h.hidden
  · rw [hpublished]
    exact h.effective
  · rw [hreaders, hcopies, hpublished]
    exact h.seen

/-- A change of the hidden copy leaves the record right, if it leaves there what the writer says
and nobody looks. -/
theorem Recorded.setHidden {s₀ : S} {s : System S K} (h : s.Recorded s₀)
    (hunseen : ∀ thread slot v since,
      s.readers thread ≠ .looking slot v s.gate.selector.other since)
    {writer : WriterPhase K} {copy : S} (hhides : writer.Hides s₀ copy s.published) :
    { s with writer, copies := s.copies.set s.gate.selector.other copy : System S K }.Recorded
      s₀ := by
  constructor
  · exact (Copies.get_set_other _ _ _).trans h.visible
  · change writer.Hides s₀ ((s.copies.set s.gate.selector.other copy).get s.gate.selector.other)
      s.published
    rwa [Copies.get_set]
  · exact h.effective
  · intro thread slot v side since hr
    obtain ⟨hsince, hseen⟩ := h.seen thread slot v side since hr
    refine ⟨hsince, ?_⟩
    have hside : side = s.gate.selector := by
      by_contra hne
      rw [Side.eq_other_of_ne hne] at hr
      exact hunseen thread slot v since hr
    subst hside
    exact (Copies.get_set_other _ _ _).trans hseen

/-- A publication of the hidden copy leaves the record right, if the copy has the change. -/
theorem Recorded.publish {s₀ : S} {s : System S K} (h : s.Recorded s₀) {change : Change K}
    {visible : Side} (hselector : s.gate.selector = visible)
    (happlied : apply change (applyAll s.published s₀) =
      (.ok true, s.copies.get s.gate.selector.other)) :
    { s with
      writer := .toggling change visible
      gate := s.gate.publish visible.other
      published := s.published ++ [change] : System S K }.Recorded s₀ := by
  subst hselector
  constructor
  · change s.copies.get s.gate.selector.other = applyAll (s.published ++ [change]) s₀
    rw [applyAll_concat, happlied]
  · refine ⟨s.published, rfl, ?_⟩
    change s.copies.get s.gate.selector.other.other = applyAll s.published s₀
    rw [Side.other_other]
    exact h.visible
  · intro before last hprefix
    rcases List.prefix_concat_iff.mp hprefix with heq | hprefix
    · obtain ⟨rfl, hlast⟩ := List.append_inj' heq rfl
      cases hlast
      rw [happlied]
    · exact h.effective before last hprefix
  · intro thread slot v side since hr
    obtain ⟨hsince, hseen⟩ := h.seen thread slot v side since hr
    constructor
    · change since ≤ (s.published ++ [change]).length
      rw [List.length_append]
      omega
    · change s.copies.get side = applyAll ((s.published ++ [change]).take since) s₀
      rw [List.take_append_of_le_length hsince]
      exact hseen

/-- What is changed first is the hidden copy, which has all published changes. -/
theorem Recorded.of_changing {s₀ : S} {s : System S K} (h : s.Recorded s₀) (hguarded : s.Guarded)
    {change : Change K} {visible : Side} (changing : s.writer = .changing change visible) :
    s.gate.selector = visible ∧ s.copies.get visible.other = applyAll s.published s₀ := by
  have hagrees := hguarded.agrees
  have hhidden := h.hidden
  rw [changing] at hagrees hhidden
  have hselector : s.gate.selector = visible := hagrees
  refine ⟨hselector, ?_⟩
  rw [← hselector]
  exact hhidden

/-- Each step leaves the record right, if the hidden copy is guarded and no change breaks off. -/
theorem Recorded.of_moves [Lawful S] {s₀ : S} {s t : System S K} {a : Action K}
    (h : s.Recorded s₀) (hguarded : s.Guarded) (hwhole : ¬ s.BreaksOff) (hm : s.Moves a t) :
    t.Recorded s₀ := by
  have hagrees := hguarded.agrees
  have hhidden := h.hidden
  -- Whoever changes a copy changes the hidden one, at which nobody looks.
  have hunseen {side : Side} (htarget : s.writer.target? = some side) (thread slot : Nat)
      (v : Version) (since : Nat) :
      s.readers thread ≠ .looking slot v s.gate.selector.other since :=
    hguarded.target_eq htarget ▸ hguarded.not_looking htarget thread slot v since
  cases hm with
  | announce => exact h.setReader (by simp)
  | count => exact (h.adjust ..).setReader (by simp)
  | select =>
    refine h.setReader ?_
    rintro _ _ _ _ ⟨⟩
    exact ⟨rfl, rfl⟩
  | look => exact h
  | depart => exact (h.adjust ..).setReader (by simp)
  | start idle => exact h.setWriter rfl rfl rfl rfl fun hh => by rwa [idle] at hh
  | begin begun => exact h.setWriter rfl rfl rfl rfl fun hh => by rwa [begun] at hh
  | @effect change visible copy changing applied =>
    obtain ⟨rfl, hcopy⟩ := h.of_changing hguarded changing
    refine h.setHidden (hunseen (by rw [changing]; rfl)) ?_
    change apply change (applyAll s.published s₀) = (.ok true, copy)
    rw [← hcopy]
    exact applied
  | @refuse change visible outcome copy changing applied ineffective =>
    obtain ⟨rfl, hcopy⟩ := h.of_changing hguarded changing
    refine h.setHidden (hunseen (by rw [changing]; rfl)) ?_
    rcases outcome with fault | _ | _
    · exact absurd ⟨change, _, fault, by rw [changing]; rfl, by rw [applied]⟩ hwhole
    · rw [Lawful.unchanged applied]
      exact hcopy
    · exact absurd rfl ineffective
  | publish publishing =>
    rw [publishing] at hagrees hhidden
    exact h.publish hagrees hhidden
  | toggle toggling => exact h.setWriter rfl rfl rfl rfl fun hh => by rwa [toggling] at hh
  | rescan draining | pass draining | emptied draining | drained draining =>
    exact h.setWriter rfl rfl rfl rfl fun hh => by rwa [draining] at hh
  | switch switching => exact h.setWriter rfl rfl rfl rfl fun hh => by rwa [switching] at hh
  | @replay change visible replaying =>
    rw [replaying] at hagrees hhidden
    obtain ⟨before, hpublished, hbefore⟩ := hhidden
    have hselector : s.gate.selector.other = visible := by
      rw [show s.gate.selector = visible.other from hagrees, Side.other_other]
    subst hselector
    refine h.setHidden (hunseen (by rw [replaying]; rfl)) ?_
    change (apply change (s.copies.get s.gate.selector.other)).2 = applyAll s.published s₀
    rw [hbefore, hpublished, applyAll_concat]

/-- Throughout a run on a new gate with two equal copies, which never crowds a counter and in
which no change breaks off, the record is right and the hidden copy is guarded. -/
theorem throughout_recorded [Lawful S] {slots : Nat} {slowDrain : Option Duration} {s₀ : S}
    {g : TwinSet S K} (hgate : Gate.create slots slowDrain = .ok g.gate)
    (hcopies : g.content.copies = ⟨s₀, s₀⟩) {actions : List (Action K)}
    (hroom : (ofSet g).Throughout Uncrowded actions)
    (hwhole : (ofSet g).Throughout (¬ BreaksOff ·) actions) :
    (ofSet g).Throughout (Recorded s₀) actions := by
  intro before hbefore t hrun
  have hguarded : (ofSet g).Throughout (fun s => s.Guarded ∧ ¬ s.BreaksOff) before :=
    fun first hfirst u hu =>
      ⟨(guarded_of_run hgate (hroom.take (hfirst.trans hbefore)) hu).2,
        hwhole first (hfirst.trans hbefore) u hu⟩
  exact hguarded.induction (fun s a u _ hs h hm => h.of_moves hs.1 hs.2 hm)
    (recorded_ofSet hcopies) hrun

/-- A reader that looks at a copy goes on looking at it until it leaves. -/
theorem looking_of_run {s t : System S K} {thread slot since : Nat} {v : Version} {side : Side}
    {actions : List (Action K)} (hr : s.readers thread = .looking slot v side since)
    (hinside : .depart thread ∉ actions) (hrun : s.run actions = some t) :
    t.readers thread = .looking slot v side since := by
  have htrue : s.Throughout (fun _ => True) actions := fun _ _ _ _ => trivial
  refine htrue.induction (P := fun s => s.readers thread = .looking slot v side since) ?_ hr hrun
  rintro s a u ha - hr hm
  -- The next step of this reader can only be to look or to leave.
  have hkeep (other : Nat) (phase : ReaderPhase) (hne : thread ≠ other) :
      (s.setReader other phase).readers thread = .looking slot v side since := by
    rw [setReader_of_ne hne, hr]
  cases hm with
  | announce outside => exact hkeep _ _ fun he => by simp [he, outside] at hr
  | count announced => exact hkeep _ _ fun he => by simp [he, announced] at hr
  | select counted => exact hkeep _ _ fun he => by simp [he, counted] at hr
  | depart => exact hkeep _ _ fun he => hinside (he ▸ ha)
  | _ => exact hr

/-- What is published stays published. -/
theorem Moves.published_mono {s t : System S K} {a : Action K} (hm : s.Moves a t) :
    s.published <+: t.published := by
  cases hm with
  | publish => exact List.prefix_append ..
  | _ => exact List.prefix_rfl

/-- What is published before a run is published after it. -/
theorem published_mono_of_run {s t : System S K} {actions : List (Action K)}
    (hrun : s.run actions = some t) : s.published <+: t.published :=
  run_induction (P := fun t => s.published <+: t.published)
    (fun _ _ _ hs hstep => hs.trans (moves_of_step hstep).published_mono) List.prefix_rfl hrun

/-- How far a write has come that was called while these changes were published: it is still
before its publication or behind it, and has ended in the one way or in the other. -/
def Writes (change : Change K) (s₀ : S) (published : List (Change K)) (s : System S K) : Prop :=
  let effective := (apply change (applyAll published s₀)).1 = .ok true
  match s.writer with
  | .idle => s.published = published ++ if effective then [change] else []
  | .begun c | .changing c _ => c = change ∧ s.published = published
  | .publishing c _ => c = change ∧ s.published = published ∧ effective
  | .toggling c _ | .draining c _ _ _ _ | .switching c _ _ | .replaying c _ =>
    c = change ∧ s.published = published ++ [change] ∧ effective

/-- Each step but the call of another write takes a write along. -/
theorem Writes.of_moves [Lawful S] {change : Change K} {s₀ : S} {published : List (Change K)}
    {s t : System S K} {a : Action K} (h : s.Writes change s₀ published)
    (hrecorded : s.Recorded s₀) (hguarded : s.Guarded) (ha : ∀ c, a ≠ .start c)
    (hm : s.Moves a t) : t.Writes change s₀ published := by
  unfold Writes at h ⊢
  cases hm with
  | announce | count | select | look | depart => exact h
  | start => exact absurd rfl (ha _)
  | begin begun => rwa [begun] at h
  | effect changing applied =>
    obtain ⟨-, hcopy⟩ := hrecorded.of_changing hguarded changing
    rw [changing] at h
    obtain ⟨rfl, hpublished⟩ := h
    rw [hpublished] at hcopy
    exact ⟨rfl, hpublished, by rw [← hcopy, applied]⟩
  | @refuse c _ _ _ changing applied ineffective =>
    obtain ⟨-, hcopy⟩ := hrecorded.of_changing hguarded changing
    rw [changing] at h
    obtain ⟨rfl, hpublished⟩ := h
    rw [hpublished] at hcopy
    have hineffective : (apply c (applyAll published s₀)).1 ≠ .ok true := by
      rw [← hcopy, applied]
      exact ineffective
    simpa only [hineffective, if_false, List.append_nil] using hpublished
  | publish publishing =>
    rw [publishing] at h
    obtain ⟨rfl, hpublished, heffective⟩ := h
    exact ⟨rfl, by rw [hpublished], heffective⟩
  | toggle toggling => rwa [toggling] at h
  | rescan draining | pass draining | emptied draining | drained draining => rwa [draining] at h
  | switch switching => rwa [switching] at h
  | replay replaying =>
    rw [replaying] at h
    obtain ⟨rfl, hpublished, heffective⟩ := h
    simpa only [heffective, if_true] using hpublished

/-- Whatever the writer is about to do to a sorted list, it does not break off. -/
theorem not_breaksOff_sortedList {K : Type} [Ord K] (s : System (SortedList K) K) :
    ¬ s.BreaksOff := by
  rintro ⟨change, side, fault, -, hfault⟩
  rw [SortedList.apply_eq] at hfault
  cases hfault

/-- The changes that are published when these steps have been taken. -/
def history (actions : List (Action K)) (s : System S K) : List (Change K) :=
  (s.run actions).elim [] (·.published)

theorem history_of_run {s t : System S K} {actions : List (Action K)}
    (hrun : s.run actions = some t) : s.history actions = t.published := by
  rw [history, hrun]
  rfl

/-- When the run has come so far, the thread is in the read in which it learned its side after
the first of these steps. -/
def InRead (thread : Nat) (before sofar : List (Action K)) : Prop :=
  ∃ during, sofar = before ++ .select thread :: during ∧ .depart thread ∉ during

/-- When the run has come so far, the write that was called after the first of these steps has
returned, and no other was called. -/
def Returned (change : Change K) (called sofar : List (Action K)) (s : System S K) : Prop :=
  ∃ during t, sofar = called ++ .start change :: during ∧ (∀ c, .start c ∉ during) ∧
    s.run sofar = some t ∧ t.writer = .idle

/-- A run in which each read happens when it learns its side and each write when it publishes
its change, from copies that were the same at first. -/
structure Linearizable (s₀ : S) (actions : List (Action K)) (s : System S K) : Prop where
  /-- All that is seen in a read is what the changes have made that were published when it
  learned its side. -/
  look : ∀ thread before sofar t, sofar <+: actions → InRead thread before sofar →
    s.run sofar = some t → t.sight thread = some (applyAll (s.history before) s₀)
  /-- What is published had an effect after all that was published before it. -/
  effective : ∀ change before, before ++ [change] <+: s.history actions →
    (apply change (applyAll before s₀)).1 = .ok true
  /-- A write that has returned has published its change, if that had an effect, and nothing
  else. -/
  returned : ∀ change called sofar, sofar <+: actions → s.Returned change called sofar →
    s.history sofar = s.history called ++
      if (apply change (applyAll (s.history called) s₀)).1 = .ok true then [change] else []
  /-- A read that learns its side after an effective write has returned sees its change. -/
  sees : ∀ change called sofar thread before last t, s.Returned change called sofar →
    (apply change (applyAll (s.history called) s₀)).1 = .ok true → sofar <+: before →
    InRead thread before last → last <+: actions → s.run last = some t →
    ∃ later, t.sight thread = some (applyAll (s.history called ++ change :: later) s₀)
  /-- A read that was made before a write was called sees at most what was published before the
  call. -/
  misses : ∀ thread before last t called, InRead thread before last → last <+: called →
    called <+: actions → s.run last = some t →
    ∃ earlier, earlier <+: s.history called ∧ t.sight thread = some (applyAll earlier s₀)
  /-- Of two reads, the one that learns its side later sees what the other one sees, or that
  with later changes. -/
  steady : ∀ thread first sofar t other second last u, InRead thread first sofar →
    InRead other second last → first <+: second → sofar <+: actions → last <+: actions →
    s.run sofar = some t → s.run last = some u → ∃ earlier later,
      t.sight thread = some (applyAll earlier s₀) ∧
      u.sight other = some (applyAll (earlier ++ later) s₀)

/-- The start of a run that can be taken can be taken. -/
theorem run_of_prefix {s t : System S K} {before actions : List (Action K)}
    (hbefore : before <+: actions) (hrun : s.run actions = some t) :
    ∃ u, s.run before = some u := by
  obtain ⟨rest, rfl⟩ := hbefore
  obtain ⟨u, hu, -⟩ := run_append_eq_some.mp hrun
  exact ⟨u, hu⟩

/-- The changes that are published at some time stay so. -/
theorem history_mono {s t : System S K} {before sofar actions : List (Action K)}
    (hrun : s.run actions = some t) (hbefore : before <+: sofar) (hsofar : sofar <+: actions) :
    s.history before <+: s.history sofar := by
  obtain ⟨v, hv⟩ := run_of_prefix hsofar hrun
  obtain ⟨rest, rfl⟩ := hbefore
  obtain ⟨u, hu, hrest⟩ := run_append_eq_some.mp hv
  rw [history_of_run hu, history_of_run hv]
  exact published_mono_of_run hrest

/-- The steps before a read or a write are some of those that lead into it. -/
theorem InRead.starts {thread : Nat} {before sofar : List (Action K)}
    (h : InRead thread before sofar) : before <+: sofar := by
  obtain ⟨during, rfl, -⟩ := h
  exact List.prefix_append ..

/-- What is seen in a read was published when the reader learned its side. -/
theorem sight_of_inRead {s₀ : S} {s t : System S K} {thread : Nat}
    {before sofar : List (Action K)} (hread : InRead thread before sofar)
    (hrecorded : t.Recorded s₀) (hrun : s.run sofar = some t) :
    t.sight thread = some (applyAll (s.history before) s₀) := by
  obtain ⟨during, rfl, hinside⟩ := hread
  obtain ⟨u, hu, hrest⟩ := run_append_eq_some.mp hrun
  obtain ⟨w, hm, hduring⟩ := run_cons_eq_some hrest
  rw [history_of_run hu]
  cases hm with
  | @select _ slot v =>
    have hr : t.readers thread = .looking slot v u.gate.selector u.published.length :=
      looking_of_run (setReader_same ..) hinside hduring
    obtain ⟨-, hseen⟩ := hrecorded.seen thread slot v _ _ hr
    have hprefix : u.published <+: t.published := published_mono_of_run hrest
    rw [sight, hr]
    change some (t.copies.get u.gate.selector) = _
    rw [hseen, ← List.prefix_iff_eq_take.mp hprefix]

/-- A write that has returned has published its change, if that had an effect. -/
theorem history_of_returned [Lawful S] {s₀ : S} {s : System S K} {change : Change K}
    {called sofar : List (Action K)} (hreturned : s.Returned change called sofar)
    (hright : s.Throughout (fun t => t.Recorded s₀ ∧ t.Guarded) sofar) :
    s.history sofar = s.history called ++
      if (apply change (applyAll (s.history called) s₀)).1 = .ok true then [change] else [] := by
  obtain ⟨during, t, rfl, halone, hrun, hidle⟩ := hreturned
  obtain ⟨u, hu, hrest⟩ := run_append_eq_some.mp hrun
  rw [history_of_run hrun, history_of_run hu]
  rw [run_cons, Option.bind_eq_some_iff] at hrest
  obtain ⟨w, hstep, hduring⟩ := hrest
  have hright' : w.Throughout (fun t => t.Recorded s₀ ∧ t.Guarded) during :=
    (hright.drop hu).tail hstep
  have hstart : w.Writes change s₀ u.published := by
    cases moves_of_step hstep with
    | start => exact ⟨rfl, rfl⟩
  have hwrites : t.Writes change s₀ u.published := by
    refine hright'.induction (P := (·.Writes change s₀ u.published)) ?_ hstart hduring
    intro s a t ha hs h hm
    exact h.of_moves hs.1 hs.2 (fun c hc => halone c (hc ▸ ha)) hm
  unfold Writes at hwrites
  rwa [hidle] at hwrites

/-- However the steps of any number of readers and of one write after another are interleaved
on a new set of two equal copies, each read happens, as a whole, when the reader learns its side,
and each write when it publishes its change, as long as no counter is crowded and no change
breaks off. -/
theorem reads_linearizable [Lawful S] {slots : Nat} {slowDrain : Option Duration} {s₀ : S}
    {g : TwinSet S K} (hgate : Gate.create slots slowDrain = .ok g.gate)
    (hcopies : g.content.copies = ⟨s₀, s₀⟩) {actions : List (Action K)} {s : System S K}
    (hroom : (ofSet g).Throughout Uncrowded actions)
    (hwhole : (ofSet g).Throughout (¬ BreaksOff ·) actions)
    (hrun : (ofSet g).run actions = some s) : (ofSet g).Linearizable s₀ actions := by
  have hrecorded := throughout_recorded hgate hcopies hroom hwhole
  have hright : (ofSet g).Throughout (fun t => t.Recorded s₀ ∧ t.Guarded) actions :=
    fun before hbefore t ht =>
      ⟨hrecorded before hbefore t ht, (guarded_of_run hgate (hroom.take hbefore) ht).2⟩
  constructor
  case look =>
    intro thread before sofar t hsofar hread ht
    exact sight_of_inRead hread (hrecorded sofar hsofar t ht) ht
  case effective =>
    intro change before hprefix
    rw [history_of_run hrun] at hprefix
    exact (hrecorded actions List.prefix_rfl s hrun).effective before change hprefix
  case returned =>
    intro change called sofar hsofar hreturned
    exact history_of_returned hreturned (hright.take hsofar)
  case sees =>
    intro change called sofar thread before last t hreturned heffective hafter hread hlast ht
    have hbefore : before <+: actions := hread.starts.trans hlast
    have hwritten := history_of_returned hreturned (hright.take (hafter.trans hbefore))
    rw [if_pos heffective] at hwritten
    obtain ⟨later, hlater⟩ := history_mono hrun hafter hbefore
    refine ⟨later, ?_⟩
    rw [sight_of_inRead hread (hrecorded last hlast t ht) ht, ← hlater, hwritten,
      List.append_assoc, List.singleton_append]
  case misses =>
    intro thread before last t called hread hearlier hcalled ht
    have hlast := hrecorded last (hearlier.trans hcalled) t ht
    exact ⟨(ofSet g).history before, history_mono hrun (hread.starts.trans hearlier) hcalled,
      sight_of_inRead hread hlast ht⟩
  case steady =>
    intro thread first sofar t other second last u hread hother hsecond hsofar hlast ht hu
    obtain ⟨later, hlater⟩ := history_mono hrun hsecond (hother.starts.trans hlast)
    refine ⟨(ofSet g).history first, later,
      sight_of_inRead hread (hrecorded sofar hsofar t ht) ht, ?_⟩
    rw [hlater]
    exact sight_of_inRead hother (hrecorded last hlast u hu) hu

/-- In the overlapping reads the third reader sees the number while the old copy has yet to be
changed. -/
theorem reads_linearizable_overlapping : ∃ s,
    Gate.create 1 none = .ok narrowSet.gate ∧
    narrowSet.content.copies = ⟨{}, {}⟩ ∧
    (ofSet narrowSet).Throughout Uncrowded overlappingReads ∧
    (ofSet narrowSet).Throughout (¬ BreaksOff ·) overlappingReads ∧
    (ofSet narrowSet).run overlappingReads = some s ∧
    s.sight 3 = some { keys := [5] } ∧
    (ofSet narrowSet).Linearizable {} overlappingReads :=
  have hgate : Gate.create 1 none = .ok narrowSet.gate := rfl
  have hroom : (ofSet narrowSet).Throughout Uncrowded overlappingReads :=
    throughout_uncrowded hgate (by decide)
  have hwhole : (ofSet narrowSet).Throughout (¬ BreaksOff ·) overlappingReads :=
    fun _ _ t _ => not_breaksOff_sortedList t
  ⟨_, hgate, rfl, hroom, hwhole, rfl, rfl, reads_linearizable hgate rfl hroom hwhole rfl⟩

end System

end LeftRight
