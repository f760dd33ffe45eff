import LeftRight.OrderedSet.Basic
import LeftRight.Text.Inspection

/-!
# Sorted lists

An ordered set as the list of its keys, strictly ascending. Keys count as the same if the
order does not tell them apart; of such keys the set holds the first that was added.
-/

namespace LeftRight

/-- A set as the ascending list of its keys. -/
structure SortedList (K : Type) where
  /-- The keys in ascending order, each once. -/
  keys : List K := []
  deriving Repr

namespace SortedList

variable {K : Type}

/-- Put a key into its place in an ascending list; nothing if the key is there already. -/
def insert? [Ord K] (k : K) : List K → Option (List K)
  | [] => some [k]
  | x :: xs =>
    match compare k x with
    | .lt => some (k :: x :: xs)
    | .eq => none
    | .gt => (insert? k xs).map (x :: ·)

/-- Take a key out of an ascending list; nothing if the key is not there. -/
def erase? [Ord K] (k : K) : List K → Option (List K)
  | [] => none
  | x :: xs =>
    match compare k x with
    | .lt => none
    | .eq => some xs
    | .gt => (erase? k xs).map (x :: ·)

/-- Look a key up in an ascending list. -/
def find? [Ord K] (k : K) : List K → Option K
  | [] => none
  | x :: xs =>
    match compare k x with
    | .lt => none
    | .eq => some x
    | .gt => find? k xs

/-- The result of a change that may have no effect: whether it had, and the set after it. -/
def report (s : SortedList K) (changed : Option (List K)) : Bool × SortedList K :=
  match changed with
  | some keys => (true, ⟨keys⟩)
  | none => (false, s)

/-- Insert a key, unless it is present. -/
def add [Ord K] (k : K) (s : SortedList K) : Bool × SortedList K := s.report (insert? k s.keys)

/-- Take a key out, if it is present. -/
def remove [Ord K] (k : K) (s : SortedList K) : Bool × SortedList K :=
  s.report (erase? k s.keys)

/-- Whether a key is present. -/
def contains [Ord K] (k : K) (s : SortedList K) : Bool := (find? k s.keys).isSome

/-- Drop the keys that follow an equal one, where `x` is the last that was kept. -/
def dropRepeatsAfter [BEq K] (x : K) : List K → List K
  | [] => []
  | y :: ys => if y == x then dropRepeatsAfter x ys else y :: dropRepeatsAfter y ys

/-- Keep only the first of equal keys that stand next to each other. -/
def dropRepeats [BEq K] : List K → List K
  | [] => []
  | x :: xs => x :: dropRepeatsAfter x xs

/-- The set of the keys in a list: the keys are sorted, and those that repeat are dropped. -/
def ofList [Ord K] [BEq K] (xs : List K) : SortedList K :=
  ⟨dropRepeats (xs.mergeSort fun a b => (compare a b).isLE)⟩

instance [Ord K] : OrderedSet (SortedList K) K where
  empty := {}
  apply change s :=
    let (changed, s) := match change with
      | .add k => s.add k
      | .remove k => s.remove k
    (.ok changed, s)
  contains := contains
  size s := s.keys.length
  toList := keys

/-- Sets are equal if their lists are, key by key. -/
instance [BEq K] : BEq (SortedList K) := ⟨fun s t => s.keys == t.keys⟩

instance [Inspectable K] : Inspectable (SortedList K) :=
  ⟨fun s => .record "SortedVec" [("keys", inspect s.keys)]⟩

end SortedList

end LeftRight
