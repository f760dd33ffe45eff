import LeftRight.OrderedSet.Basic
import LeftRight.Text.Inspection
import Std.Data.TreeSet.Basic

/-!
# Search trees

An ordered set as a balanced search tree. Keys count as the same if the order does not tell
them apart; of such keys the set holds the first that was added.
-/

namespace LeftRight

/-- A set as a balanced search tree of its keys. -/
structure SearchTree (K : Type) [Ord K] where
  /-- The tree. -/
  keys : Std.TreeSet K compare := ∅

namespace SearchTree

variable {K : Type} [Ord K]

/-- Insert a key, unless it is present. -/
def add (k : K) (s : SearchTree K) : Bool × SearchTree K :=
  let (present, keys) := s.keys.containsThenInsert k
  (!present, ⟨keys⟩)

/-- Take a key out, if it is present. -/
def remove (k : K) (s : SearchTree K) : Bool × SearchTree K :=
  (s.keys.contains k, ⟨s.keys.erase k⟩)

/-- The set of the keys in a list, which are added one by one. -/
def ofList (xs : List K) : SearchTree K := xs.foldl (fun s k => (s.add k).2) {}

instance : OrderedSet (SearchTree K) K where
  empty := {}
  apply change s :=
    let (changed, s) := match change with
      | .add k => s.add k
      | .remove k => s.remove k
    (.ok changed, s)
  contains k s := s.keys.contains k
  size s := s.keys.size
  toList s := s.keys.toList

/-- Sets are equal if they list equal keys in the same order. -/
instance [BEq K] : BEq (SearchTree K) := ⟨fun s t => s.keys.toList == t.keys.toList⟩

instance [Inspectable K] : Inspectable (SearchTree K) :=
  ⟨fun s => .set (s.keys.toList.map inspect)⟩

end SearchTree

end LeftRight
