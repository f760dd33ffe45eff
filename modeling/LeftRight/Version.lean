/-!
# Versions

Readers are counted under one of two versions, so that a writer can wait for those that
arrived before it switched versions apart from those that arrived after.
-/

namespace LeftRight

/-- One of the two versions under which readers are counted. -/
inductive Version where
  /-- Version zero, under which the first readers arrive. -/
  | zero
  /-- Version one. -/
  | one
  deriving DecidableEq, Repr

namespace Version

/-- The version that is not this one. -/
def other : Version → Version
  | zero => one
  | one => zero

/-- The name of the version in answers and messages. -/
def name : Version → String
  | zero => "Zero"
  | one => "One"

@[simp] theorem other_other (v : Version) : v.other.other = v := by cases v <;> rfl

@[simp] theorem other_ne (v : Version) : v.other ≠ v := by cases v <;> decide

/-- There is no third version. -/
theorem eq_other_of_ne {v w : Version} (h : v ≠ w) : v = w.other := by
  cases v <;> cases w <;> simp_all [other]

end Version

end LeftRight
