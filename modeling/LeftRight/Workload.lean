import LeftRight.TwinSet.Basic

/-!
# Workloads

Several writers, each with a program of its own, share a twin set. A schedule tells whose
call comes next. While the programs keep to disjoint keys, every schedule comes to the same
answers and the same set.
-/

namespace LeftRight

/-- A call that a writer makes. -/
inductive Call (K : Type) where
  /-- Change the set. -/
  | change (change : Change K)
  /-- Ask whether a key is present. -/
  | contains (key : K)
  deriving DecidableEq, Repr

/-- A writer on its way through its program. -/
structure Writer (K : Type) where
  /-- The calls still to be made. -/
  program : List (Call K)
  /-- The answers so far, the latest first. -/
  answers : List (Except Fault Bool) := []

/-- Writers who share a set. -/
structure Workload (S K : Type) where
  /-- The set. -/
  set : TwinSet S K
  /-- The writers. -/
  writers : List (Writer K)

namespace Workload

variable {S K : Type} [OrderedSet S K]

/-- What a call by a thread comes to, while nobody is inside. -/
def call (thread : Nat) (c : Call K) (set : TwinSet S K) : Except Fault Bool × TwinSet S K :=
  match c with
  | .change change => TwinSet.write change [] set
  | .contains key => TwinSet.contains thread key set

/-- Let a writer make its next call, if it has one. -/
def step (w : Workload S K) (index : Nat) : Workload S K :=
  match w.writers[index]? with
  | some { program := c :: program, answers } =>
    let (answer, set) := call index c w.set
    { set, writers := w.writers.set index { program, answers := answer :: answers } }
  | _ => w

/-- Let writers make calls in the order of a schedule. -/
def run (schedule : List Nat) (w : Workload S K) : Workload S K := schedule.foldl step w

/-- The schedule by which writers take turns until all are done. -/
def turns (w : Workload S K) : List Nat :=
  let longest := (w.writers.map (·.program.length)).foldl max 0
  (List.replicate longest (List.range w.writers.length)).flatten

end Workload

end LeftRight
