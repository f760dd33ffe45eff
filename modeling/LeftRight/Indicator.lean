import LeftRight.Fault
import LeftRight.Text.Inspection

/-!
# The read indicator

Readers announce themselves on an indicator. It counts them by slot and by version, and new
readers are counted under its current version. Counters are words and wrap around: silently
on arrival, and with a fault when a reader departs from a counter that is zero.
-/

namespace LeftRight

/-- The counters of one slot. -/
structure Slot where
  /-- Readers counted under version zero. -/
  zero : UInt64 := 0
  /-- Readers counted under version one. -/
  one : UInt64 := 0
  deriving DecidableEq, Repr

namespace Slot

/-- The counter of a version. -/
def count (v : Version) (s : Slot) : UInt64 :=
  match v with
  | .zero => s.zero
  | .one => s.one

/-- Change the counter of a version. -/
def adjust (v : Version) (f : UInt64 → UInt64) (s : Slot) : Slot :=
  match v with
  | .zero => { s with zero := f s.zero }
  | .one => { s with one := f s.one }

@[simp] theorem count_adjust (v : Version) (f : UInt64 → UInt64) (s : Slot) :
    (s.adjust v f).count v = f (s.count v) := by cases v <;> rfl

@[simp] theorem count_other_adjust (v : Version) (f : UInt64 → UInt64) (s : Slot) :
    (s.adjust v f).count v.other = s.count v.other := by cases v <;> rfl

end Slot

/-- The counters of all slots, and the version under which new readers are counted. -/
structure Indicator where
  /-- The version under which new readers arrive. -/
  current : Version := .zero
  /-- The counters, slot by slot. -/
  slots : List Slot
  /-- There is at least one slot. -/
  slots_ne_nil : slots ≠ []
  deriving DecidableEq, Repr

namespace Indicator

/-- An indicator of so many slots, on which nobody is counted. -/
def create (slots : Nat) : Except Fault Indicator :=
  if h : slots = 0 then .error .noSlots
  else .ok { slots := .replicate slots {}, slots_ne_nil := by simp [h] }

/-- The number of slots. -/
def size (i : Indicator) : Nat := i.slots.length

/-- The counter of a slot under a version; a slot that does not exist counts nobody. -/
def count (v : Version) (slot : Nat) (i : Indicator) : UInt64 :=
  (i.slots[slot]?.getD {}).count v

/-- Change the counter of a slot under a version. -/
def adjust (slot : Nat) (v : Version) (f : UInt64 → UInt64) (i : Indicator) : Indicator where
  current := i.current
  slots := i.slots.modify slot (·.adjust v f)
  slots_ne_nil := by
    rw [← List.length_pos_iff, List.length_modify, List.length_pos_iff]
    exact i.slots_ne_nil

/-- Let new readers arrive under a version. -/
def switch (v : Version) (i : Indicator) : Indicator := { i with current := v }

/-- Announce a reader on a slot, under the version it learns. -/
def arrive (slot : Nat) (i : Indicator) : Except Fault Version × Indicator :=
  if slot < i.size then (.ok i.current, i.adjust slot i.current (· + 1))
  else (.error (.slotOutOfRange i.size slot), i)

/-- Retract a reader that was announced on this slot under this version. -/
def depart (slot : Nat) (v : Version) (i : Indicator) : Except Fault Unit × Indicator :=
  if slot < i.size then
    (if i.count v slot = 0 then .error (.underflow slot v) else .ok (),
      i.adjust slot v (· - 1))
  else (.error (.slotOutOfRange i.size slot), i)

/-- Whether nobody is counted under a version. -/
def isEmpty (v : Version) (i : Indicator) : Bool := i.slots.all fun s => s.count v == 0

/-- How many are counted under a version. -/
def total (v : Version) (i : Indicator) : Nat :=
  i.slots.foldr (fun s n => (s.count v).toNat + n) 0

/-- How many are counted under a version, if that number fits into a word. -/
def readers (v : Version) (i : Indicator) : Except Fault Nat :=
  if i.total v < UInt64.size then .ok (i.total v) else .error .totalOverflow

/-- The inspection text, which needs the number of readers of both versions. -/
def inspection (i : Indicator) : Except Fault Inspection := do
  let readersZero ← i.readers .zero
  let readersOne ← i.readers .one
  return .record "ReadIndicator" [
    ("current", .atom i.current.name),
    ("slots", inspect i.size),
    ("readers", inspect [readersZero, readersOne])]

@[simp] theorem size_adjust (slot : Nat) (v : Version) (f : UInt64 → UInt64) (i : Indicator) :
    (i.adjust slot v f).size = i.size := List.length_modify ..

@[simp] theorem current_adjust (slot : Nat) (v : Version) (f : UInt64 → UInt64)
    (i : Indicator) : (i.adjust slot v f).current = i.current := rfl

@[simp] theorem size_switch (v : Version) (i : Indicator) : (i.switch v).size = i.size := rfl

@[simp] theorem current_switch (v : Version) (i : Indicator) : (i.switch v).current = v := rfl

@[simp] theorem count_switch (v w : Version) (slot : Nat) (i : Indicator) :
    (i.switch v).count w slot = i.count w slot := rfl

@[simp] theorem isEmpty_switch (v w : Version) (i : Indicator) :
    (i.switch v).isEmpty w = i.isEmpty w := rfl

/-- A version is empty if and only if every counter under it is zero. -/
theorem isEmpty_iff {v : Version} {i : Indicator} :
    i.isEmpty v = true ↔ ∀ slot, i.count v slot = 0 := by
  simp only [isEmpty, List.all_eq_true, beq_iff_eq, count]
  constructor
  · intro h slot
    cases hs : i.slots[slot]? with
    | none => cases v <;> rfl
    | some s => exact h s (List.mem_of_getElem? hs)
  · intro h s hs
    obtain ⟨slot, hslot⟩ := List.getElem?_of_mem hs
    simpa [hslot] using h slot

/-- An adjustment reaches the counter that it names. -/
theorem count_adjust {slot : Nat} {i : Indicator} (h : slot < i.size) (v : Version)
    (f : UInt64 → UInt64) : (i.adjust slot v f).count v slot = f (i.count v slot) := by
  have : slot < i.slots.length := h
  simp [count, adjust, this]

/-- An adjustment reaches no other counter. -/
theorem count_adjust_of_ne {slot slot' : Nat} {v v' : Version} (i : Indicator)
    (f : UInt64 → UInt64) (h : slot ≠ slot' ∨ v ≠ v') :
    (i.adjust slot v f).count v' slot' = i.count v' slot' := by
  simp only [count, adjust, List.getElem?_modify]
  by_cases hs : slot = slot'
  · obtain rfl := Version.eq_other_of_ne (h.resolve_left (· hs))
    subst hs
    cases hi : i.slots[slot]? with
    | none => simp
    | some s =>
      have := Slot.count_other_adjust v'.other f s
      simpa using this
  · cases hi : i.slots[slot']? <;> simp [hs]

/-- A version is empty if and only if the number of its readers is zero. -/
theorem isEmpty_iff_total {v : Version} {i : Indicator} :
    i.isEmpty v = true ↔ i.total v = 0 := by
  unfold isEmpty total
  induction i.slots with
  | nil => simp
  | cons s slots ih =>
    rw [List.all_cons, Bool.and_eq_true, ih, List.foldr_cons, Nat.add_eq_zero_iff, beq_iff_eq,
      ← UInt64.toNat_inj]
    rfl

end Indicator

end LeftRight
