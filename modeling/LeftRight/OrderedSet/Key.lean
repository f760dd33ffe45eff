import LeftRight.Text.Quoted

/-!
# Keys

Keys that are more than a number or a text: pairs, keys in descending order, and keys with a
tag that the order does not see.
-/

namespace LeftRight

/-- The key of a set that can hold one key only. -/
inductive UnitKey where
  /-- The only key. -/
  | unit
  deriving DecidableEq, Repr

instance : Ord UnitKey := ⟨fun _ _ => .eq⟩

instance : Inspectable UnitKey := ⟨fun _ => .tuple "" []⟩

/-- A number and a text, ordered by the number first. -/
structure PairKey where
  /-- The number. -/
  number : Int
  /-- The text. -/
  text : String
  deriving DecidableEq, Repr

instance : Ord PairKey :=
  ⟨fun a b => (compare a.number b.number).then (compare a.text b.text)⟩

instance : Inspectable PairKey := ⟨fun k => .tuple "" [inspect k.number, inspect k.text]⟩

/-- A number that comes before the smaller ones. -/
structure DescendingKey where
  /-- The number. -/
  number : Int
  deriving DecidableEq, Repr

instance : Ord DescendingKey := ⟨fun a b => compare b.number a.number⟩

instance : Inspectable DescendingKey := ⟨fun k => .tuple "Reverse" [inspect k.number]⟩

/-- A number with a tag. Only the number decides about order and equality. -/
structure TaggedKey where
  /-- The number. -/
  number : Int
  /-- The tag. -/
  tag : String
  deriving Repr

instance : Ord TaggedKey := ⟨fun a b => compare a.number b.number⟩

instance : BEq TaggedKey := ⟨fun a b => a.number == b.number⟩

instance : Inspectable TaggedKey :=
  ⟨fun k => .record "Tagged" [("k", inspect k.number), ("tag", inspect k.tag)]⟩

end LeftRight
