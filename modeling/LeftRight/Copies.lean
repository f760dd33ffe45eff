import LeftRight.Side

/-!
# Copies

The two copies of a set, found and replaced by their side.
-/

namespace LeftRight

/-- Two copies of the same kind. -/
structure Copies (S : Type) where
  /-- The left copy. -/
  left : S
  /-- The right copy. -/
  right : S
  deriving DecidableEq, Repr

namespace Copies

variable {S : Type}

/-- The copy on a side. -/
def get (side : Side) (c : Copies S) : S :=
  match side with
  | .left => c.left
  | .right => c.right

/-- Replace the copy on a side. -/
def set (side : Side) (s : S) (c : Copies S) : Copies S :=
  match side with
  | .left => { c with left := s }
  | .right => { c with right := s }

@[simp] theorem get_set (side : Side) (s : S) (c : Copies S) :
    (c.set side s).get side = s := by cases side <;> rfl

@[simp] theorem get_other_set (side : Side) (s : S) (c : Copies S) :
    (c.set side s).get side.other = c.get side.other := by cases side <;> rfl

@[simp] theorem get_set_other (side : Side) (s : S) (c : Copies S) :
    (c.set side.other s).get side = c.get side := by cases side <;> rfl

@[simp] theorem get_same (side : Side) (s : S) : (⟨s, s⟩ : Copies S).get side = s := by
  cases side <;> rfl

end Copies

end LeftRight
