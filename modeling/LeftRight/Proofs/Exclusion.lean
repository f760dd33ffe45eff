import LeftRight.OrderedSet.SortedList
import LeftRight.Proofs.Occupancy

/-!
# Exclusion of readers and the writer

A writer never changes a copy at which a reader looks. Whoever still looks at the old copy was
counted before the new one was published, and stays counted under its version until it leaves;
the two drains find both versions empty one after the other, slot by slot, so they cannot both
end while it is inside. The version that was current plays no part in this.
-/

namespace LeftRight

/-- Whether the writer has yet to find the counter of this slot and version at zero, before it
changes the copy that it has hidden. -/
def WriterPhase.Awaits {K : Type} (slot : Nat) (v : Version) : WriterPhase K → Prop
  | toggling _ _ => True
  | draining _ _ previous false next => v = previous ∨ next ≤ slot
  | draining _ _ previous true next => v = previous ∧ next ≤ slot
  | switching _ _ previous => v = previous
  | _ => False

/-- Whether the selector is as the writer left it. -/
def WriterPhase.Agrees {K : Type} (selector : Side) : WriterPhase K → Prop
  | idle | begun _ => True
  | changing _ visible | publishing _ visible => selector = visible
  | toggling _ visible | draining _ visible _ _ _ | switching _ visible _
  | replaying _ visible => selector = visible.other

/-- A writer that changes a copy changes the one that new readers are not sent to. -/
theorem WriterPhase.Agrees.target_eq {K : Type} {writer : WriterPhase K} {selector side : Side}
    (h : writer.Agrees selector) (htarget : writer.target? = some side) :
    side = selector.other := by
  cases writer <;> simp only [WriterPhase.target?, WriterPhase.Agrees, Option.some.injEq,
    reduceCtorEq] at htarget h
  · rw [h, htarget]
  · rw [h, Side.other_other, htarget]

namespace System

variable {S K : Type}

/-- The readers of the hidden copy are awaited. -/
structure Guarded (s : System S K) : Prop where
  /-- The selector is as the writer left it. -/
  agrees : s.writer.Agrees s.gate.selector
  /-- Who looks at the hidden copy is awaited by the writer. -/
  awaits : ∀ thread slot v side since, s.readers thread = .looking slot v side since →
    side ≠ s.gate.selector → s.writer.Awaits slot v

/-- A writer that changes a copy changes the hidden one. -/
theorem Guarded.target_eq {s : System S K} (h : s.Guarded) {side : Side}
    (htarget : s.writer.target? = some side) : side = s.gate.selector.other :=
  h.agrees.target_eq htarget

/-- A writer that changes a copy awaits nobody any more. -/
theorem not_awaits_of_target {s : System S K} {side : Side}
    (htarget : s.writer.target? = some side) (slot : Nat) (v : Version) :
    ¬ s.writer.Awaits slot v := by
  cases hw : s.writer <;> simp_all [WriterPhase.target?, WriterPhase.Awaits]

/-- Nobody looks at a copy that is being changed. -/
theorem Guarded.not_looking {s : System S K} (h : s.Guarded) {side : Side}
    (htarget : s.writer.target? = some side) (thread slot : Nat) (v : Version) (since : Nat) :
    s.readers thread ≠ .looking slot v side since := by
  intro hr
  refine not_awaits_of_target htarget slot v (h.awaits thread slot v side since hr ?_)
  rw [h.target_eq htarget]
  exact Side.other_ne _

/-- A reader that comes to a phase in which it does not look at the hidden copy leaves the
hidden copy guarded. -/
theorem Guarded.setReader {s : System S K} (h : s.Guarded) {thread : Nat} {phase : ReaderPhase}
    (hphase : ∀ slot v side since, phase = .looking slot v side since →
      side = s.gate.selector) : (s.setReader thread phase).Guarded := by
  refine ⟨h.agrees, ?_⟩
  intro other slot v side since hr hne
  by_cases ho : other = thread
  · subst ho
    rw [setReader_same] at hr
    exact absurd (hphase slot v side since hr) hne
  · rw [setReader_of_ne ho] at hr
    exact h.awaits other slot v side since hr hne

/-- A change of a counter leaves the hidden copy guarded. -/
theorem Guarded.adjust {s : System S K} (h : s.Guarded) (slot : Nat) (v : Version)
    (f : UInt64 → UInt64) : (s.adjust slot v f).Guarded := ⟨h.agrees, h.awaits⟩

/-- A writer that goes on to await those whom it has awaited leaves the hidden copy guarded. -/
theorem Guarded.setWriter {s t : System S K} (h : s.Guarded) (hreaders : t.readers = s.readers)
    (hselector : t.gate.selector = s.gate.selector) (hagrees : t.writer.Agrees s.gate.selector)
    (hawaits : ∀ thread slot v side since, s.readers thread = .looking slot v side since →
      s.writer.Awaits slot v → t.writer.Awaits slot v) : t.Guarded := by
  constructor
  · rwa [hselector]
  · intro thread slot v side since hr hne
    rw [hreaders] at hr
    rw [hselector] at hne
    exact hawaits thread slot v side since hr (h.awaits thread slot v side since hr hne)

/-- A writer that has awaited nobody leaves the hidden copy guarded. -/
theorem Guarded.setWriter_of_not_awaits {s t : System S K} (h : s.Guarded)
    (hreaders : t.readers = s.readers) (hselector : t.gate.selector = s.gate.selector)
    (hagrees : t.writer.Agrees s.gate.selector) (hnobody : ∀ slot v, ¬ s.writer.Awaits slot v) :
    t.Guarded :=
  h.setWriter hreaders hselector hagrees fun _ slot v _ _ _ ha => absurd ha (hnobody slot v)

/-- At rest there is nobody to be awaited. -/
theorem guarded_ofSet (g : TwinSet S K) : (ofSet g).Guarded := ⟨trivial, nofun⟩

/-- Each step of the writer in a drain keeps the hidden copy guarded, if no counter is crowded:
a reader that looks at the hidden copy holds up the scan at its slot. -/
theorem Guarded.of_scan {s : System S K} (h : s.Guarded) (htally : s.Tallied)
    (hroom : s.Uncrowded) {change : Change K} {visible : Side} {previous : Version}
    {switched : Bool} {slot : Nat}
    (hdraining : s.writer = .draining change visible previous switched slot)
    (hempty : s.gate.indicator.count (scanned previous switched) slot = 0)
    {writer : WriterPhase K} (hagrees : writer.Agrees visible.other)
    (hwriter : ∀ slot' v, slot' < s.gate.indicator.size →
      (WriterPhase.draining change visible previous switched (slot + 1)).Awaits slot' v →
      writer.Awaits slot' v) : { s with writer : System S K }.Guarded := by
  have hselector : s.gate.selector = visible.other := by
    have := h.agrees
    rwa [hdraining] at this
  refine h.setWriter rfl rfl (hselector ▸ hagrees) ?_
  intro thread slot' v side since hr ha
  have hslot : slot' < s.gate.indicator.size := htally.inRange thread slot' (by rw [hr]; rfl)
  have hplace : ¬ (slot' = slot ∧ v = scanned previous switched) := by
    rintro ⟨rfl, rfl⟩
    exact htally.place_ne hroom hempty thread (by rw [hr]; rfl)
  refine hwriter slot' v hslot ?_
  rw [hdraining] at ha
  cases switched with
  | false =>
    by_cases hv : v = previous
    · exact Or.inl hv
    · have hne : slot' ≠ slot := fun he => hplace ⟨he, Version.eq_other_of_ne hv⟩
      have hle : slot ≤ slot' := ha.resolve_left hv
      exact Or.inr (by omega)
  | true =>
    have hne : slot' ≠ slot := fun he => hplace ⟨he, ha.1⟩
    have hle : slot ≤ slot' := ha.2
    exact ⟨ha.1, by omega⟩

variable [OrderedSet S K]

/-- Each step keeps the hidden copy guarded, while no counter is crowded. -/
theorem Guarded.of_moves {s t : System S K} {a : Action K} (h : s.Guarded) (htally : s.Tallied)
    (hroom : s.Uncrowded) (hm : s.Moves a t) : t.Guarded := by
  have hagrees := h.agrees
  cases hm with
  | announce => exact h.setReader (by simp)
  | count => exact (h.adjust ..).setReader (by simp)
  | select =>
    refine h.setReader ?_
    rintro _ _ _ _ ⟨⟩
    rfl
  | look => exact h
  | depart => exact (h.adjust ..).setReader (by simp)
  | start idle =>
    exact h.setWriter_of_not_awaits rfl rfl trivial (by simp [idle, WriterPhase.Awaits])
  | begin begun =>
    exact h.setWriter_of_not_awaits rfl rfl rfl (by simp [begun, WriterPhase.Awaits])
  | effect changing =>
    rw [changing] at hagrees
    exact h.setWriter_of_not_awaits rfl rfl hagrees (by simp [changing, WriterPhase.Awaits])
  | refuse changing =>
    exact h.setWriter_of_not_awaits rfl rfl trivial (by simp [changing, WriterPhase.Awaits])
  | publish => exact ⟨rfl, fun _ _ _ _ _ _ _ => trivial⟩
  | toggle toggling =>
    rw [toggling] at hagrees
    exact h.setWriter rfl rfl hagrees fun _ slot _ _ _ _ _ => Or.inr slot.zero_le
  | @rescan _ _ _ switched _ draining =>
    rw [draining] at hagrees
    refine h.setWriter rfl rfl hagrees ?_
    intro thread slot v side since hr ha
    rw [draining] at ha
    cases switched with
    | false => exact Or.inr slot.zero_le
    | true => exact ⟨ha.1, slot.zero_le⟩
  | pass draining empty => exact h.of_scan htally hroom draining empty rfl fun _ _ _ ha => ha
  | emptied draining empty last =>
    refine h.of_scan htally hroom draining empty rfl ?_
    intro slot v hslot ha
    exact ha.resolve_right (by omega)
  | switch switching =>
    rw [switching] at hagrees
    refine h.setWriter rfl rfl hagrees ?_
    intro thread slot v side since hr ha
    rw [switching] at ha
    exact ⟨ha, slot.zero_le⟩
  | drained draining empty last =>
    refine h.of_scan htally hroom draining empty rfl ?_
    intro slot v hslot ha
    have := ha.2
    omega
  | replay replaying =>
    exact h.setWriter_of_not_awaits rfl rfl trivial (by simp [replaying, WriterPhase.Awaits])

/-- After a run on a new gate that never crowds a counter, the tally is right and the hidden
copy is guarded. -/
theorem guarded_of_run {slots : Nat} {slowDrain : Option Duration} {g : TwinSet S K}
    (hgate : Gate.create slots slowDrain = .ok g.gate) {actions : List (Action K)}
    {s : System S K} (hroom : (ofSet g).Throughout Uncrowded actions)
    (hrun : (ofSet g).run actions = some s) : s.Tallied ∧ s.Guarded := by
  refine Throughout.induction (P := fun s => s.Tallied ∧ s.Guarded) ?_ hroom
    ⟨tallied_ofSet hgate, guarded_ofSet g⟩ hrun
  rintro s a t - hs ⟨htally, hguarded⟩ hm
  exact ⟨htally.of_moves hm, hguarded.of_moves htally hs hm⟩

/-- However the steps of any number of readers and of one write after another are interleaved
on a set with a new gate of any size, a copy that the writer is changing, for the first time or
again, is at no time one at which a reader looks, as long as no counter is crowded. -/
theorem changing_copy_unobserved {slots : Nat} {slowDrain : Option Duration} {g : TwinSet S K}
    (hgate : Gate.create slots slowDrain = .ok g.gate) {actions : List (Action K)}
    {s : System S K} (hroom : (ofSet g).Throughout Uncrowded actions)
    (hrun : (ofSet g).run actions = some s) {side : Side} (htarget : s.writer.target? = some side)
    (thread slot : Nat) (v : Version) (since : Nat) :
    s.readers thread ≠ .looking slot v side since :=
  (guarded_of_run hgate hroom hrun).2.not_looking htarget thread slot v since

/-- An empty set of numbers with a single slot. -/
def narrowSet : TwinSet (SortedList Nat) Nat where
  gate := { indicator := { slots := [{}], slots_ne_nil := by decide }, slowDrain := none }
  strategy := .yielding
  content := { copies := ⟨{}, {}⟩, assigner := .sequential }

/-- Three readers share the slot while a number is added: the first looks at the old copy, the
second enters after the new one is published and the third after the switch of versions. The
first two have left when the writer is about to change the old copy. -/
def overlappingReads : List (Action Nat) := [
  .announce 1 0, .count 1, .select 1,
  .start (.add 5), .advance, .advance, .advance,
  .announce 2 0, .count 2, .select 2, .look 1, .look 2,
  .advance, .advance, .advance, .advance,
  .announce 3 0, .depart 1, .advance, .count 3, .select 3, .depart 2, .advance]

/-- The old copy is about to be changed while the third reader looks at the new one. -/
theorem changing_copy_unobserved_overlapping : ∃ s,
    Gate.create 1 none = .ok narrowSet.gate ∧
    (ofSet narrowSet).Throughout Uncrowded overlappingReads ∧
    (ofSet narrowSet).run overlappingReads = some s ∧
    s.readers 3 = .looking 0 .one .right 1 ∧
    s.writer.target? = some .left ∧
    ∀ thread slot v since, s.readers thread ≠ .looking slot v .left since :=
  have hgate : Gate.create 1 none = .ok narrowSet.gate := rfl
  have hroom : (ofSet narrowSet).Throughout Uncrowded overlappingReads :=
    throughout_uncrowded hgate (by decide)
  ⟨_, hgate, hroom, rfl, rfl, rfl, changing_copy_unobserved hgate hroom rfl rfl⟩

end System

end LeftRight
