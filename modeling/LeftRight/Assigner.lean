import LeftRight.Fault

/-!
# Slot assigners

Readers are spread over slots so that they do not meet on one counter. An assigner says on
which slot a thread is counted. Threads that share a slot only slow each other down.
-/

namespace LeftRight

/-- Fold a word up to the left by `n` bits. -/
def foldLeft (n : UInt64) (w : UInt64) : UInt64 := w ^^^ (w <<< n)

/-- Fold a word down to the right by `n` bits. -/
def foldRight (n : UInt64) (w : UInt64) : UInt64 := w ^^^ (w >>> n)

/-- Turn a word to the left by `n` bits, for `n` from 1 to 63. -/
def turnLeft (n : UInt64) (w : UInt64) : UInt64 := (w <<< n) ||| (w >>> (64 - n))

/-- The hash of a thread's id: multiply by an odd constant, turn, and fold three times. -/
def threadHash (id : UInt64) : UInt64 :=
  foldLeft 4 (foldRight 35 (foldLeft 21 (turnLeft 26 (id * 0xf1357aea2e62a9c5))))

/-- The remainder of a number by the number of slots. -/
def remainderSlot (slots n : Nat) : Except Fault Nat :=
  if slots = 0 then .error .noDivisor else .ok (n % slots)

/-- Says on which slot a thread is counted. -/
structure Assigner where
  /-- The slot for the call with this number, made by this thread, out of so many slots. -/
  slot : (call thread slots : Nat) → Except Fault Nat

namespace Assigner

/-- Threads go by the hash of their id. Thread `t` has the id `t + 1`. -/
def hashed : Assigner :=
  ⟨fun _ thread slots => remainderSlot slots (threadHash (thread + 1).toUInt64).toNat⟩

/-- Threads go in turn, by a ticket each of its own. Thread `t` has ticket `t`. -/
def sequential : Assigner := ⟨fun _ thread slots => remainderSlot slots thread⟩

/-- Threads go by a table of slots, which is read round and round. -/
def table (entries : List Nat) : Assigner :=
  ⟨fun _ thread _ => match entries[thread % entries.length]? with
    | some slot => .ok slot
    | none => .error .noDivisor⟩

end Assigner

/-- A slot found by remainder is in range. -/
theorem remainderSlot_lt {slots n slot : Nat} (h : remainderSlot slots n = .ok slot) :
    slot < slots := by
  unfold remainderSlot at h
  split at h
  · simp at h
  · simp only [Except.ok.injEq] at h
    exact h ▸ Nat.mod_lt _ (by omega)

end LeftRight
