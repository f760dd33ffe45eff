import LeftRight.OrderedSet.SortedList
import LeftRight.Proofs.Bystanders
import LeftRight.Proofs.Lawful

/-!
# Convergence of the copies

As long as nothing unwinds, a write does to both copies what it does to a single one. A new reader
is told what it sees in the visible copy, or else why it is not let in and out again.
-/

namespace LeftRight

open OrderedSet

namespace TwinSet

variable {S K : Type} {g : TwinSet S K}

/-- Whether a new reader of a thread is let in and out again: its slot exists, and the counter
there is not full. -/
def Admits (thread : Nat) (g : TwinSet S K) : Prop :=
  ∃ slot, g.content.assigner.slot g.content.assigned thread g.gate.indicator.size = .ok slot ∧
    slot < g.gate.indicator.size ∧
    g.gate.indicator.count g.gate.indicator.current slot + 1 ≠ 0

/-- Whether a thread that enters is let in: its slot exists. -/
def Seats (thread : Nat) (g : TwinSet S K) : Prop :=
  ∃ slot, g.content.assigner.slot g.content.assigned thread g.gate.indicator.size = .ok slot ∧
    slot < g.gate.indicator.size

/-- Why a thread does not enter: it is given no slot, or one that does not exist. -/
inductive Misses (thread : Nat) (g : TwinSet S K) : Fault → Prop
  /-- The assigner breaks off. -/
  | unassigned {fault : Fault}
      (assigned : g.content.assigner.slot g.content.assigned thread g.gate.indicator.size =
        .error fault) : Misses thread g fault
  /-- The slot does not exist. -/
  | outOfRange {slot : Nat}
      (assigned : g.content.assigner.slot g.content.assigned thread g.gate.indicator.size =
        .ok slot) (range : g.gate.indicator.size ≤ slot) :
      Misses thread g (.slotOutOfRange g.gate.indicator.size slot)

/-- Why a new reader of a thread is not let in and out again: it misses its slot, or the counter
there is full and comes round to zero when the reader is counted. -/
inductive Denies (thread : Nat) (g : TwinSet S K) : Fault → Prop
  /-- It does not enter. -/
  | missed {fault : Fault} (misses : g.Misses thread fault) : Denies thread g fault
  /-- It enters, and is not found on its counter when it leaves. -/
  | full {slot : Nat}
      (assigned : g.content.assigner.slot g.content.assigned thread g.gate.indicator.size =
        .ok slot) (range : slot < g.gate.indicator.size)
      (full : g.gate.indicator.count g.gate.indicator.current slot + 1 = 0) :
      Denies thread g (.underflow slot g.gate.indicator.current)

/-- A reader that is admitted is told what is seen in the visible copy. -/
theorem read_of_admits {α : Type} {thread : Nat} (h : g.Admits thread)
    (look : Side → S → List (Event K) × Except Fault α) :
    (read thread look g).1 = (look g.gate.selector g.visibleCopy).2 := by
  obtain ⟨slot, hslot, hrange, hroom⟩ := h
  have hcount : (g.gate.indicator.adjust slot g.gate.indicator.current (· + 1)).count
      g.gate.indicator.current slot ≠ 0 := by
    rw [Indicator.count_adjust hrange]
    exact hroom
  simp only [read, enter, hslot, Gated.record_gate, Gated.record_content, Indicator.arrive,
    hrange, if_true, leave, Indicator.depart, Indicator.size_adjust, hcount, if_false]
  rfl

/-- A thread that enters is given a slot that exists, and one that does not misses its slot. -/
theorem enter_outcome (thread : Nat) (g : TwinSet S K) :
    (g.Seats thread ∧ ∃ reader, (enter thread g).1 = .ok reader) ∨
      ∃ fault, g.Misses thread fault ∧ (enter thread g).1 = .error fault := by
  rcases hslot : g.content.assigner.slot g.content.assigned thread g.gate.indicator.size with
    fault | slot
  · refine .inr ⟨fault, .unassigned hslot, ?_⟩
    simp only [enter, hslot]
  · by_cases hrange : slot < g.gate.indicator.size
    · refine .inl ⟨⟨slot, hslot, hrange⟩,
        ⟨thread, slot, g.gate.indicator.current, g.gate.selector⟩, ?_⟩
      simp only [enter, hslot, Gated.record_gate, Indicator.arrive, hrange, if_true]
    · refine .inr ⟨_, .outOfRange hslot (Nat.le_of_not_lt hrange), ?_⟩
      simp only [enter, hslot, Gated.record_gate, Indicator.arrive, hrange, if_false]

/-- A read tells what is seen in the visible copy if the reader is admitted, or else why it is
not. -/
theorem read_outcome {α : Type} (thread : Nat)
    (look : Side → S → List (Event K) × Except Fault α) (g : TwinSet S K) :
    (g.Admits thread ∧ (read thread look g).1 = (look g.gate.selector g.visibleCopy).2) ∨
      ∃ fault, g.Denies thread fault ∧ (read thread look g).1 = .error fault := by
  rcases enter_outcome thread g with ⟨⟨slot, hslot, hrange⟩, -⟩ | ⟨fault, hmisses, hentered⟩
  · by_cases hfull : g.gate.indicator.count g.gate.indicator.current slot + 1 = 0
    · refine .inr ⟨_, .full hslot hrange hfull, ?_⟩
      have hcount : (g.gate.indicator.adjust slot g.gate.indicator.current (· + 1)).count
          g.gate.indicator.current slot = 0 := by
        rw [Indicator.count_adjust hrange]
        exact hfull
      simp only [read, enter, hslot, Gated.record_gate, Gated.record_content, Indicator.arrive,
        hrange, if_true, leave, Indicator.depart, Indicator.size_adjust, hcount]
    · have hadmits : g.Admits thread := ⟨slot, hslot, hrange, hfull⟩
      exact .inl ⟨hadmits, read_of_admits hadmits look⟩
  · refine .inr ⟨fault, .missed hmisses, ?_⟩
    rcases hresult : enter thread g with ⟨outcome, g₁⟩
    rw [hresult] at hentered
    subst hentered
    simp only [read, hresult]

/-- Both copies are one and the same if the visible one and the hidden one are. -/
theorem copies_eq_iff {c : S} :
    g.content.copies = ⟨c, c⟩ ↔ g.visibleCopy = c ∧ g.hiddenCopy = c := by
  unfold visibleCopy hiddenCopy
  generalize g.content.copies = copies
  constructor
  · rintro rfl
    cases g.gate.selector <;> exact ⟨rfl, rfl⟩
  · obtain ⟨left, right⟩ := copies
    rintro ⟨hvisible, hhidden⟩
    cases hside : g.gate.selector with
    | left =>
      rw [hside] at hvisible hhidden
      obtain rfl : left = c := hvisible
      obtain rfl : right = left := hhidden
      rfl
    | right =>
      rw [hside] at hvisible hhidden
      obtain rfl : right = c := hvisible
      obtain rfl : left = right := hhidden
      rfl

variable [OrderedSet S K]

/-- What a write notes of its changes, the first of them on this side. -/
def noted (change : Change K) (side : Side) (effective : Bool) : List (Event K) :=
  .changed change side (some effective) ::
    if effective then [.changed change side.other (some true)] else []

/-- A write in which nothing unwinds does to both copies what it does to a single one, and returns
the same. If the first copy accepts the change, so does the second. -/
theorem write_converges [Lawful S] {change : Change K} {polls : List (Poll K (Twin S))} {c : S}
    {outcome : Except Fault Bool} {g' : TwinSet S K}
    (hpolls : ∀ poll ∈ polls, Undisturbing poll ∧ Candid poll)
    (hcopies : g.content.copies = ⟨c, c⟩) (hwrite : write change polls g = (outcome, g'))
    (hquiet : ∀ e ∈ g'.events, e.unwinds = false) :
    ∃ effective, apply change c = (.ok effective, g'.visibleCopy) ∧ outcome = .ok effective ∧
      g'.hiddenCopy = g'.visibleCopy ∧
      g'.changes = g.changes ++ noted change g.gate.selector.other effective := by
  obtain ⟨hvisible, hhidden⟩ := copies_eq_iff.mp hcopies
  have hundisturbing : ∀ poll ∈ polls, Undisturbing poll := fun poll hp => (hpolls poll hp).1
  have hwrote : g.Wrote change polls (write change polls g).1 (write change polls g).2 :=
    wrote_write hundisturbing g
  rw [hwrite] at hwrote
  -- What unwinds is in the trace.
  have hunwinds {e : Event K} (he : e ∈ g'.events) : e.unwinds ≠ true := by
    rw [hquiet e he]
    exact Bool.false_ne_true
  have hchanged {e : Event K} (he : e ∈ g'.changes) : e.unwinds ≠ true :=
    hunwinds (List.mem_filter.mp he).1
  cases hwrote with
  | refused applied ineffective selector visible changes =>
    rw [hhidden] at applied
    rcases outcome with fault | _ | _
    · refine absurd rfl (hchanged (e := .changed change g.gate.selector.other none) ?_)
      rw [changes]
      exact List.mem_append_right _ (List.mem_singleton.mpr rfl)
    · have hsame := Lawful.unchanged applied
      refine ⟨false, ?_, rfl, ?_, changes⟩
      · rw [applied, hsame, visible, hvisible]
      · rw [hsame, visible, hvisible]
    · exact absurd rfl ineffective
  | interrupted applied selector hidden unwound =>
    obtain ⟨e, he, hunwound⟩ := unwound fun poll hp => (hpolls poll hp).2
    exact absurd hunwound (hunwinds he)
  | replayed applied replayed selector changes =>
    rw [hhidden] at applied
    rw [hvisible, applied] at replayed
    obtain ⟨rfl, hsame⟩ := Prod.mk.inj replayed
    refine ⟨true, applied, rfl, hsame.symm, ?_⟩
    rw [changes, noted, Side.other_other]
    rfl

end TwinSet

namespace SetSession

variable {S K : Type} [OrderedSet S K]

/-- A session of which the trace has been taken. -/
def heard (s : SetSession S K) : SetSession S K := { s with set := { s.set with events := [] } }

theorem run_cons (step : SetStep K) (steps : List (SetStep K)) (s : SetSession S K) :
    s.run (step :: steps) =
      (((s.perform step).1, (s.perform step).2.set.events) ::
        ((s.perform step).2.heard.run steps).1, ((s.perform step).2.heard.run steps).2) := rfl

/-- The configuration of a single slot, without a log of slow drains. -/
def narrowConfig : Config := { parallelism := Parallelism.ofWord? 1, slowDrain := none }

/-- A session with an empty set of numbers, of which the readers share a slot. -/
def narrowSession : SetSession (SortedList Nat) Nat where
  set := {
    gate := {
      indicator := { slots := .replicate 1 {}, slots_ne_nil := List.cons_ne_nil _ _ }
      slowDrain := none }
    strategy := .yielding
    content := { copies := ⟨{}, {}⟩, assigner := .sequential }
    events := [.configured narrowConfig .yielding, .created 1 1] }
  mayStay := true

end SetSession

end LeftRight
