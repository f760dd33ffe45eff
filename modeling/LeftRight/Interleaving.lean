import LeftRight.TwinSet.Basic

/-!
# Interleavings

A twin set under any scheduling. Each access to what the threads share is a step of its own:
a load of the current version or of the selector, a change of a counter, a look at a copy, the
load of one counter, a store, a change of a copy. Anyone may be delayed between any two of
their steps, for as long as it pleases the schedule. Writers take turns, so there is one at a
time. A published change is noted down, and so is how many were when a reader learned its
side: that tells what a reader should see.
-/

namespace LeftRight

/-- How far a reader has come. -/
inductive ReaderPhase where
  /-- It does not read. -/
  | outside
  /-- It knows the version under which to be counted, and is not counted yet. -/
  | announced (slot : Nat) (version : Version)
  /-- It is counted, and does not know its side yet. -/
  | counted (slot : Nat) (version : Version)
  /-- It looks at a copy, since so many changes were published. -/
  | looking (slot : Nat) (version : Version) (side : Side) (since : Nat)
  deriving DecidableEq, Repr

/-- How far the writer has come with a change. -/
inductive WriterPhase (K : Type) where
  /-- Nobody writes. -/
  | idle
  /-- It has its turn, and does not know the visible side yet. -/
  | begun (change : Change K)
  /-- It changes the hidden copy. -/
  | changing (change : Change K) (visible : Side)
  /-- It is about to publish the hidden copy. -/
  | publishing (change : Change K) (visible : Side)
  /-- It is about to learn the current version. -/
  | toggling (change : Change K) (visible : Side)
  /-- It is about to load the counter of a slot, before or after the switch of versions. -/
  | draining (change : Change K) (visible : Side) (previous : Version) (switched : Bool)
      (slot : Nat)
  /-- It is about to switch versions. -/
  | switching (change : Change K) (visible : Side) (previous : Version)
  /-- It changes the other copy. -/
  | replaying (change : Change K) (visible : Side)
  deriving DecidableEq, Repr

/-- The side of the copy that the writer is changing. -/
def WriterPhase.target? {K : Type} : WriterPhase K → Option Side
  | changing _ visible => some visible.other
  | replaying _ visible => some visible
  | _ => none

/-- What the threads share, and how far each of them has come. -/
structure System (S K : Type) where
  /-- The gate. -/
  gate : Gate
  /-- The copies. -/
  copies : Copies S
  /-- The readers, by thread. -/
  readers : Nat → ReaderPhase := fun _ => .outside
  /-- The writer. -/
  writer : WriterPhase K := .idle
  /-- The changes that were published, the oldest first. -/
  published : List (Change K) := []

/-- One step of one thread. -/
inductive Action (K : Type) where
  /-- A reader loads the current version, and will be counted on a slot. -/
  | announce (thread slot : Nat)
  /-- A reader is counted. -/
  | count (thread : Nat)
  /-- A reader loads the selector. -/
  | select (thread : Nat)
  /-- A reader looks at its copy. -/
  | look (thread : Nat)
  /-- A reader is counted no longer. -/
  | depart (thread : Nat)
  /-- A writer gets its turn. -/
  | start (change : Change K)
  /-- The writer takes its next step. -/
  | advance
  deriving DecidableEq, Repr

namespace System

variable {S K : Type}

/-- A set at rest. -/
def ofSet (g : TwinSet S K) : System S K := { gate := g.gate, copies := g.content.copies }

/-- A reader comes to a phase. -/
def setReader (thread : Nat) (phase : ReaderPhase) (s : System S K) : System S K :=
  { s with readers := fun t => if t = thread then phase else s.readers t }

/-- Change a counter of the indicator. -/
def adjust (slot : Nat) (v : Version) (f : UInt64 → UInt64) (s : System S K) : System S K :=
  { s with gate.indicator := s.gate.indicator.adjust slot v f }

/-- The copy at which a reader looks, if it looks at one. -/
def sight (thread : Nat) (s : System S K) : Option S :=
  match s.readers thread with
  | .looking _ _ side _ => some (s.copies.get side)
  | _ => none

/-- The next step of a writer that drains: after a counter that is zero it goes on to the next
slot, and after the last one to what follows the drain; after any other it starts again. -/
def drainStep (change : Change K) (visible : Side) (previous : Version) (switched : Bool)
    (slot : Nat) (s : System S K) : WriterPhase K :=
  let version := if switched then previous else previous.other
  if s.gate.indicator.count version slot = 0 then
    if slot + 1 < s.gate.indicator.size then
      .draining change visible previous switched (slot + 1)
    else if switched then .replaying change visible
    else .switching change visible previous
  else .draining change visible previous switched 0

variable [OrderedSet S K]

/-- The next step of the writer, if there is one. A change that has no effect or breaks off
ends the write, and so does the second change, whatever it reports. -/
def advance (s : System S K) : Option (System S K) :=
  match s.writer with
  | .idle => none
  | .begun change => some { s with writer := .changing change s.gate.selector }
  | .changing change visible =>
    let (outcome, copy) := OrderedSet.apply change (s.copies.get visible.other)
    let writer := match outcome with
      | .ok true => .publishing change visible
      | _ => .idle
    some { s with writer, copies := s.copies.set visible.other copy }
  | .publishing change visible => some { s with
      writer := .toggling change visible
      gate := s.gate.publish visible.other
      published := s.published ++ [change] }
  | .toggling change visible =>
    some { s with writer := .draining change visible s.gate.indicator.current false 0 }
  | .draining change visible previous switched slot =>
    some { s with writer := s.drainStep change visible previous switched slot }
  | .switching change visible previous => some { s with
      writer := .draining change visible previous true 0
      gate := s.gate.switch previous.other }
  | .replaying change visible => some { s with
      writer := .idle
      copies := s.copies.set visible (OrderedSet.apply change (s.copies.get visible)).2 }

/-- A step, if the thread that takes it has come so far. -/
def step (s : System S K) : Action K → Option (System S K)
  | .announce thread slot =>
    if s.readers thread = .outside ∧ slot < s.gate.indicator.size then
      some (s.setReader thread (.announced slot s.gate.indicator.current))
    else none
  | .count thread =>
    match s.readers thread with
    | .announced slot version =>
      some ((s.adjust slot version (· + 1)).setReader thread (.counted slot version))
    | _ => none
  | .select thread =>
    match s.readers thread with
    | .counted slot version =>
      some (s.setReader thread (.looking slot version s.gate.selector s.published.length))
    | _ => none
  | .look thread => if (s.sight thread).isSome then some s else none
  | .depart thread =>
    match s.readers thread with
    | .looking slot version _ _ =>
      some ((s.adjust slot version (· - 1)).setReader thread .outside)
    | _ => none
  | .start change =>
    match s.writer with
    | .idle => some { s with writer := .begun change }
    | _ => none
  | .advance => s.advance

/-- Some steps one after another, if each can be taken. -/
def run (actions : List (Action K)) (s : System S K) : Option (System S K) :=
  actions.foldlM step s

theorem run_append (as bs : List (Action K)) (s : System S K) :
    s.run (as ++ bs) = (s.run as).bind (run bs) := by
  rw [run, List.foldlM_append]
  rfl

/-- What holds at first and is kept by each step holds after every run. -/
theorem run_induction {P : System S K → Prop}
    (hstep : ∀ s a t, P s → step s a = some t → P t) {actions : List (Action K)}
    {s t : System S K} (hs : P s) (h : s.run actions = some t) : P t := by
  induction actions generalizing s with
  | nil => exact Option.some.inj h ▸ hs
  | cons a as ih =>
    rw [run, List.foldlM_cons, Option.bind_eq_bind, Option.bind_eq_some_iff] at h
    obtain ⟨u, hu, h⟩ := h
    exact ih (hstep s a u hs hu) h

end System

end LeftRight
