import LeftRight.Config.Basic

/-!
# Wait strategies

How a writer passes the time between two polls. The backoff spins and yields for eleven
polls and then, if it was told how long, sleeps; the other strategy yields every time and
remembers nothing.
-/

namespace LeftRight

/-- A backoff that first spins, then yields and at last sleeps. -/
structure Backoff where
  /-- The number of pauses since the last restart, as far as it matters. -/
  step : Nat
  /-- The length of the sleeps, if the backoff sleeps at all. -/
  sleep : Option Duration
  /-- Pauses after the eleventh are not counted. -/
  step_le : step ≤ 11
  deriving DecidableEq, Repr

namespace Backoff

/-- A backoff that has not paused yet, and will sleep for so long if for any time. -/
def fresh (sleep : Option Duration) : Backoff := ⟨0, sleep, Nat.zero_le 11⟩

/-- Whether spinning and yielding are exhausted. -/
def isCompleted (b : Backoff) : Bool := 10 < b.step

/-- How long the next pause sleeps, if it does not spin or yield instead. -/
def nap (b : Backoff) : Option Duration := if b.isCompleted then b.sleep else none

/-- Spin or yield once. -/
def snooze (b : Backoff) : Backoff where
  step := min 11 (b.step + 1)
  sleep := b.sleep
  step_le := Nat.min_le_left ..

/-- Pause once: a pause that sleeps changes nothing, any other is a step. -/
def pause (b : Backoff) : Backoff := if b.nap.isSome then b else b.snooze

/-- Start anew with spinning. -/
def reset (b : Backoff) : Backoff := fresh b.sleep

/-- Take over the sleep of a configuration, if it has one. -/
def configure (config : Config) (b : Backoff) : Backoff :=
  { b with sleep := config.drainSleep <|> b.sleep }

@[simp] theorem reset_step (b : Backoff) : b.reset.step = 0 := rfl

@[simp] theorem reset_sleep (b : Backoff) : b.reset.sleep = b.sleep := rfl

@[simp] theorem configure_step (config : Config) (b : Backoff) :
    (b.configure config).step = b.step := rfl

/-- Asleep or not, a pause takes the backoff one step on, up to the eleventh. -/
theorem pause_step (b : Backoff) : b.pause.step = min 11 (b.step + 1) := by
  have := b.step_le
  by_cases h : 10 < b.step
  · cases hs : b.sleep with
    | none => simp [pause, nap, isCompleted, snooze, h, hs]
    | some d =>
      simp only [pause, nap, isCompleted, h, hs, decide_true, if_true, Option.isSome_some]
      omega
  · simp [pause, nap, isCompleted, snooze, h]

@[simp] theorem pause_sleep (b : Backoff) : b.pause.sleep = b.sleep := by
  unfold pause
  split <;> rfl

end Backoff

/-- How a writer passes the time between two polls. -/
inductive Strategy where
  /-- Spin, yield and then sleep. -/
  | backoff (state : Backoff)
  /-- Yield every time. -/
  | yielding
  deriving DecidableEq, Repr

namespace Strategy

/-- Called before the first poll of each drain. -/
def reset : Strategy → Strategy
  | backoff b => backoff b.reset
  | yielding => yielding

/-- Called after each poll that found readers. -/
def pause : Strategy → Strategy
  | backoff b => backoff b.pause
  | yielding => yielding

/-- Called once with the configuration of the set that is being built. -/
def configure (config : Config) : Strategy → Strategy
  | backoff b => backoff (b.configure config)
  | yielding => yielding

/-- How long the next pause sleeps, if it does. -/
def nap : Strategy → Option Duration
  | backoff b => b.nap
  | yielding => none

/-- The length of the sleeps, for a strategy that sleeps. -/
def sleep : Strategy → Option Duration
  | backoff b => b.sleep
  | yielding => none

/-- A call of a strategy, or several alike. -/
inductive Call where
  /-- Pause so many times. -/
  | pause (times : Nat)
  /-- Start anew. -/
  | reset
  /-- Hand over a configuration. -/
  | configure (config : Config)
  deriving DecidableEq, Repr

/-- The strategy after a call. -/
def perform (call : Call) (s : Strategy) : Strategy :=
  match call with
  | .pause times => Nat.repeat pause times s
  | .reset => s.reset
  | .configure config => s.configure config

/-- The strategy after each of some calls. -/
def session : List Call → Strategy → List Strategy
  | [], _ => []
  | call :: calls, s => s.perform call :: session calls (s.perform call)

instance : Inspectable Strategy where
  inspect
    | backoff b => .record "SpinYieldSleep" [
        ("backoff", .record "Backoff" [
          ("step", .record "Cell" [("value", inspect b.step)]),
          ("is_completed", inspect b.isCompleted)]),
        ("sleep", inspect b.sleep)]
    | yielding => .atom "YieldNow"

end Strategy

end LeftRight
