/-!
# Sides

The set is kept in two copies, a left and a right one. A side names one of them.
-/

namespace LeftRight

/-- One of the two copies. -/
inductive Side where
  /-- The left copy, which a new set shows to its readers. -/
  | left
  /-- The right copy. -/
  | right
  deriving DecidableEq, Repr

namespace Side

/-- The copy that is not this one. -/
def other : Side → Side
  | left => right
  | right => left

/-- The number that stands for the side in a selector: zero for left, one for right. -/
def index : Side → Nat
  | left => 0
  | right => 1

/-- The name of the side in answers. -/
def name : Side → String
  | left => "Left"
  | right => "Right"

@[simp] theorem other_other (s : Side) : s.other.other = s := by cases s <;> rfl

@[simp] theorem other_ne (s : Side) : s.other ≠ s := by cases s <;> decide

/-- There is no third side. -/
theorem eq_other_of_ne {s t : Side} (h : s ≠ t) : s = t.other := by
  cases s <;> cases t <;> simp_all [other]

end Side

end LeftRight
