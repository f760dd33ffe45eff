import LeftRight.Trace

/-!
# Draining

A writer that has published a copy waits until nobody looks at the other one. It drains the
version that is not current, makes that version current, and drains the one that was. Before
each drain its wait strategy starts anew; each poll that finds readers is followed by a
pause, during which others go on. Time is counted in polls, of one nanosecond each.
-/

namespace LeftRight

/-- A gate and its writer's wait strategy, what the gate guards, and a trace. -/
structure Gated (K C : Type) where
  /-- The gate. -/
  gate : Gate
  /-- How the writer waits. -/
  strategy : Strategy
  /-- What lies behind the gate. -/
  content : C
  /-- What has happened, oldest first. -/
  events : List (Event K) := []

/-- What happens at a poll that found readers: others act, and the writer pauses. It may
break off. -/
abbrev Poll (K C : Type) := Gated K C → Except Fault Unit × Gated K C

namespace Gated

variable {K C : Type}

/-- Add an event to the trace. -/
def record (e : Event K) (g : Gated K C) : Gated K C := { g with events := g.events ++ [e] }

/-- Send new readers to a side. -/
def publish (side : Side) (g : Gated K C) : Gated K C := { g with gate := g.gate.publish side }

/-- Let new readers arrive under a version. -/
def switch (v : Version) (g : Gated K C) : Gated K C := { g with gate := g.gate.switch v }

/-- Start the wait strategy anew. -/
def restart (g : Gated K C) : Gated K C :=
  { g with strategy := g.strategy.reset }.record (.reset g.strategy.reset g.gate.view)

/-- Pause once, after others did what the answers tell. -/
def pause (did : List (Answer K)) (g : Gated K C) : Gated K C :=
  { g with strategy := g.strategy.pause }.record (.waited did g.strategy.pause g.gate.view)

/-- Log a drain of so many polls, if it was slow. -/
def reportDrain (v : Version) (polls : Nat) (g : Gated K C) : Gated K C :=
  if g.gate.isSlow polls then g.record (.slowDrain v polls) else g

/-- Poll until a version is empty. What happens after each vain poll is given by a list, of
which the rest is returned; if it ends too early, the writer is stuck. -/
def awaitEmpty (v : Version) (polls : List (Poll K C)) (count : Nat) (g : Gated K C) :
    Except Fault (List (Poll K C)) × Gated K C :=
  if g.gate.indicator.isEmpty v then (.ok polls, g.reportDrain v count)
  else match polls with
    | [] => (.error .stuck, g.record .stuck)
    | poll :: rest =>
      match poll g with
      | (.error fault, g) => (.error fault, g)
      | (.ok (), g) => awaitEmpty v rest (count + 1) g

/-- Wait until nobody is counted under a version. -/
def drain (v : Version) (polls : List (Poll K C)) (g : Gated K C) :
    Except Fault (List (Poll K C)) × Gated K C :=
  g.restart.awaitEmpty v polls 0

/-- Switch versions and wait until all have left who may still be looking at the copy that
was visible before the last one was published. -/
def toggle (polls : List (Poll K C)) (g : Gated K C) : Except Fault Unit × Gated K C :=
  let previous := g.gate.indicator.current
  let next := previous.other
  match (g.record (.toggling previous next)).drain next polls with
  | (.error fault, g) => (.error fault, g)
  | (.ok rest, g) =>
    match (g.switch next).drain previous rest with
    | (.error fault, g) => (.error fault, g)
    | (.ok _, g) => (.ok (), g)

@[simp] theorem record_gate (e : Event K) (g : Gated K C) : (g.record e).gate = g.gate := rfl

@[simp] theorem record_strategy (e : Event K) (g : Gated K C) :
    (g.record e).strategy = g.strategy := rfl

@[simp] theorem record_content (e : Event K) (g : Gated K C) :
    (g.record e).content = g.content := rfl

@[simp] theorem restart_gate (g : Gated K C) : g.restart.gate = g.gate := rfl

@[simp] theorem restart_content (g : Gated K C) : g.restart.content = g.content := rfl

@[simp] theorem restart_strategy (g : Gated K C) : g.restart.strategy = g.strategy.reset := rfl

@[simp] theorem pause_gate (did : List (Answer K)) (g : Gated K C) :
    (g.pause did).gate = g.gate := rfl

@[simp] theorem pause_content (did : List (Answer K)) (g : Gated K C) :
    (g.pause did).content = g.content := rfl

@[simp] theorem reportDrain_gate (v : Version) (polls : Nat) (g : Gated K C) :
    (g.reportDrain v polls).gate = g.gate := by
  unfold reportDrain
  split <;> rfl

@[simp] theorem reportDrain_strategy (v : Version) (polls : Nat) (g : Gated K C) :
    (g.reportDrain v polls).strategy = g.strategy := by
  unfold reportDrain
  split <;> rfl

@[simp] theorem reportDrain_content (v : Version) (polls : Nat) (g : Gated K C) :
    (g.reportDrain v polls).content = g.content := by
  unfold reportDrain
  split <;> rfl

/-- Nobody is waited for under a version that is empty. -/
theorem awaitEmpty_of_isEmpty {v : Version} {polls : List (Poll K C)} {count : Nat}
    {g : Gated K C} (h : g.gate.indicator.isEmpty v = true) :
    g.awaitEmpty v polls count = (.ok polls, g.reportDrain v count) := by
  rw [awaitEmpty.eq_def, if_pos h]

/-- A wait that ends leaves the version empty. -/
theorem isEmpty_of_awaitEmpty {v : Version} {polls rest : List (Poll K C)} {count : Nat}
    {g g' : Gated K C} (h : g.awaitEmpty v polls count = (.ok rest, g')) :
    g'.gate.indicator.isEmpty v = true := by
  fun_induction awaitEmpty v polls count g with
  | case1 polls count g hv =>
    obtain ⟨-, rfl⟩ := Prod.mk.inj h
    simpa using hv
  | case2 => simp at h
  | case3 => simp at h
  | case4 _ _ _ _ _ _ _ ih => exact ih h

end Gated

end LeftRight
