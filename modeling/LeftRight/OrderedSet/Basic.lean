import LeftRight.Fault

/-!
# Ordered sets

What a copy has to offer: it starts empty, takes changes of one key at a time and says
whether they had an effect, and answers questions about its keys. A change may also break
off; what it did to the copy until then stays done.
-/

namespace LeftRight

/-- A change of one key. -/
inductive Change (K : Type) where
  /-- Insert the key. -/
  | add (key : K)
  /-- Take the key out. -/
  | remove (key : K)
  deriving DecidableEq, Repr

/-- The key that a change is about. -/
def Change.key {K : Type} : Change K → K
  | add k => k
  | remove k => k

/-- A set of keys for one thread at a time. -/
class OrderedSet (S : Type) (K : outParam Type) where
  /-- The set of no keys. -/
  empty : S
  /-- Make a change and say whether it had an effect. -/
  apply : Change K → S → Except Fault Bool × S
  /-- Whether a key is present. -/
  contains : K → S → Bool
  /-- The number of keys. -/
  size : S → Nat
  /-- The keys in ascending order. -/
  toList : S → List K

namespace OrderedSet

variable {S K : Type} [OrderedSet S K]

/-- Whether a set holds no keys. -/
def isEmpty (s : S) : Bool := size s == 0

/-- Make changes one after another, and go on where one has no effect or breaks off. -/
def applyAll (changes : List (Change K)) (s : S) : S :=
  changes.foldl (fun s c => (apply c s).2) s

end OrderedSet

end LeftRight
