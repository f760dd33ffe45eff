import LeftRight.Strategy
import Mathlib.Data.List.DropRight
import Mathlib.Data.List.Induction

/-!
# The steps of a backoff

After whatever calls, the step of a backoff is the number of pauses since it last started anew, up
to the eleventh, and its sleep is the one that was set last. A pause that sleeps leaves the step as
it is and any other one takes it on, but neither makes a difference to the count: a backoff that
sleeps has come to the eleventh step already.
-/

namespace LeftRight

namespace Strategy

/-- The strategy after all of some calls. -/
def performAll (calls : List Call) (s : Strategy) : Strategy :=
  calls.foldl (fun s call => s.perform call) s

@[simp] theorem performAll_nil (s : Strategy) : s.performAll [] = s := rfl

@[simp] theorem performAll_cons (call : Call) (calls : List Call) (s : Strategy) :
    s.performAll (call :: calls) = (s.perform call).performAll calls := rfl

theorem performAll_append (calls more : List Call) (s : Strategy) :
    s.performAll (calls ++ more) = (s.performAll calls).performAll more :=
  List.foldl_append

/-- The number of pauses of a call. -/
def Call.pauses : Call → Nat
  | pause times => times
  | _ => 0

/-- The sleep that a call sets, if it sets one. -/
def Call.sleep? : Call → Option Duration
  | configure config => config.drainSleep
  | _ => none

/-- The calls after the last restart. -/
def sinceReset (calls : List Call) : List Call := calls.rtakeWhile (· ≠ .reset)

/-- The number of pauses since the last restart. -/
def pausesSinceReset (calls : List Call) : Nat :=
  (sinceReset calls).foldl (fun n call => n + call.pauses) 0

/-- The sleep that was set last, if one was set at all. -/
def lastSleep (sleep : Option Duration) (calls : List Call) : Option Duration :=
  (calls.filterMap Call.sleep?).getLast?.or sleep

theorem pausesSinceReset_concat (calls : List Call) {call : Call} (h : call ≠ .reset) :
    pausesSinceReset (calls ++ [call]) = pausesSinceReset calls + call.pauses := by
  rw [pausesSinceReset, sinceReset, List.rtakeWhile_concat_pos _ _ _ (by simpa using h),
    List.foldl_append]
  rfl

@[simp] theorem pausesSinceReset_concat_reset (calls : List Call) :
    pausesSinceReset (calls ++ [.reset]) = 0 := by
  rw [pausesSinceReset, sinceReset, List.rtakeWhile_concat_neg _ _ _ (by simp)]
  rfl

theorem lastSleep_concat (sleep : Option Duration) (calls : List Call) (call : Call) :
    lastSleep sleep (calls ++ [call]) = call.sleep?.or (lastSleep sleep calls) := by
  cases h : call.sleep? <;> simp [lastSleep, List.filterMap_append, h]

end Strategy

namespace Backoff

open Strategy

/-- The step of a backoff after some calls: it counts the pauses, from the start or from the last
restart, up to the eleventh. -/
def stepAfter (b : Backoff) (calls : List Call) : Nat :=
  min 11 ((if .reset ∈ calls then 0 else b.step) + pausesSinceReset calls)

theorem repeat_pause (n : Nat) (b : Backoff) :
    ∃ b', Nat.repeat Strategy.pause n (.backoff b) = .backoff b' ∧
      b'.step = min 11 (b.step + n) ∧ b'.sleep = b.sleep := by
  induction n with
  | zero => exact ⟨b, rfl, by have := b.step_le; omega, rfl⟩
  | succ n ih =>
    obtain ⟨b', hb', hstep, hsleep⟩ := ih
    refine ⟨b'.pause, ?_, ?_, ?_⟩
    · rw [Nat.repeat, hb', Strategy.pause]
    · rw [pause_step, hstep]
      omega
    · rw [pause_sleep, hsleep]

/-- What a backoff comes to by some calls. -/
structure ComesTo (b : Backoff) (calls : List Call) (b' : Backoff) : Prop where
  /-- Its step counts the pauses since the last restart, up to the eleventh. -/
  step : b'.step = b.stepAfter calls
  /-- Its sleep is the one that was set last. -/
  sleep : b'.sleep = lastSleep b.sleep calls

/-- A pause sleeps if and only if a sleep is set and eleven steps are reached. -/
theorem nap_eq (b : Backoff) : b.nap = if b.step = 11 then b.sleep else none := by
  have hle := b.step_le
  have hcompleted : b.isCompleted = true ↔ b.step = 11 := by
    rw [isCompleted, decide_eq_true_eq]
    omega
  exact ite_congr (propext hcompleted) (fun _ => rfl) fun _ => rfl

/-- Each call does what the count says. -/
theorem ComesTo.perform {b b' : Backoff} {calls : List Call} (h : b.ComesTo calls b')
    (call : Call) :
    ∃ b'', (Strategy.backoff b').perform call = .backoff b'' ∧ b.ComesTo (calls ++ [call]) b'' := by
  have hstep : b'.step = min 11 _ := h.step
  cases call with
  | pause times =>
    obtain ⟨b'', hb'', hstep', hsleep⟩ := repeat_pause times b'
    refine ⟨b'', hb'', ?_, ?_⟩
    · rw [hstep', hstep, stepAfter, pausesSinceReset_concat _ Call.noConfusion]
      simp only [List.mem_append, List.mem_singleton, reduceCtorEq, or_false, Call.pauses]
      omega
    · rw [hsleep, h.sleep, lastSleep_concat]
      rfl
  | reset =>
    refine ⟨b'.reset, rfl, ?_, ?_⟩
    · simp [stepAfter]
    · rw [reset_sleep, h.sleep, lastSleep_concat]
      rfl
  | configure config =>
    refine ⟨b'.configure config, rfl, ?_, ?_⟩
    · rw [configure_step, hstep, stepAfter, pausesSinceReset_concat _ Call.noConfusion]
      simp only [List.mem_append, List.mem_singleton, reduceCtorEq, or_false, Call.pauses,
        Nat.add_zero]
    · rw [lastSleep_concat, ← h.sleep]
      change (config.drainSleep <|> b'.sleep) = config.drainSleep.or b'.sleep
      cases config.drainSleep <;> rfl

/-- After whatever calls a backoff has come to what the count says. -/
theorem performAll_backoff (b : Backoff) (calls : List Call) :
    ∃ b', (Strategy.backoff b).performAll calls = .backoff b' ∧ b.ComesTo calls b' := by
  induction calls using List.reverseRecOn with
  | nil =>
    refine ⟨b, rfl, ?_, rfl⟩
    have hle := b.step_le
    simp only [stepAfter, List.not_mem_nil, if_false]
    change b.step = min 11 (b.step + 0)
    omega
  | append_singleton calls call ih =>
    obtain ⟨b', hb', hcomes⟩ := ih
    obtain ⟨b'', hb'', hcomes'⟩ := hcomes.perform call
    refine ⟨b'', ?_, hcomes'⟩
    rw [performAll_append, hb']
    exact hb''

end Backoff

end LeftRight
