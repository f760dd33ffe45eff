import LeftRight.Version

/-!
# Faults

A fault is a reason for which an operation breaks off instead of returning. What the
operation had done until then stays done.
-/

namespace LeftRight

/-- The reasons for which an operation breaks off. -/
inductive Fault where
  /-- A read indicator was asked for with no slots. -/
  | noSlots
  /-- A slot was used that the indicator does not have. -/
  | slotOutOfRange (slots slot : Nat)
  /-- A reader departed from a slot on which nobody was counted. -/
  | underflow (slot : Nat) (version : Version)
  /-- The number of readers of a version does not fit into a word. -/
  | totalOverflow
  /-- A thread was to be assigned to one of no slots. -/
  | noDivisor
  /-- The second copy refused a change that the first one had accepted. -/
  | diverged
  /-- A writer waits for readers, and nothing more is going to happen. -/
  | stuck
  /-- A reader, a copy or the pause between two polls broke off with a message of its own. -/
  | raised (message : String)
  deriving DecidableEq, Repr

/-- The message with which an operation breaks off. -/
def Fault.message : Fault → String
  | noSlots => "a read indicator needs at least one slot"
  | slotOutOfRange slots slot =>
    s!"index out of bounds: the len is {slots} but the index is {slot}"
  | underflow slot version => s!"read indicator underflow on slot {slot} of " ++ version.name
  | totalOverflow => "attempt to add with overflow"
  | noDivisor => "attempt to calculate the remainder with a divisor of zero"
  | diverged => "left and right copies diverged"
  | stuck => "stuck"
  | raised message => message

end LeftRight
