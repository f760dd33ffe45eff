import LeftRight.OrderedSet.SearchTree
import LeftRight.OrderedSet.SortedList

/-!
# Ordered set sessions

Sessions with an ordered set alone, step by step. A session may fork: the steps of the fork
are made on a set of its own, and the session goes on as if nothing had happened.
-/

namespace LeftRight

/-- An ordered set that can be built from a list, compared and shown. -/
class Collection (S : Type) (K : outParam Type) extends OrderedSet S K, BEq S, Inspectable S where
  /-- The set of the keys in a list. -/
  ofList : List K → S

instance {K : Type} [Ord K] [BEq K] [Inspectable K] : Collection (SortedList K) K :=
  ⟨SortedList.ofList⟩

instance {K : Type} [Ord K] [BEq K] [Inspectable K] : Collection (SearchTree K) K :=
  ⟨SearchTree.ofList⟩

/-- A step of a session with an ordered set. -/
inductive KeysStep (K : Type) where
  /-- Change the set. -/
  | change (change : Change K)
  /-- Ask whether a key is present. -/
  | contains (key : K)
  /-- Ask for the number of keys. -/
  | size
  /-- Ask whether there are no keys. -/
  | isEmpty
  /-- Ask for the keys, in ascending order. -/
  | keys
  /-- Ask for the keys, in descending order. -/
  | reversed
  /-- Ask for the inspection text. -/
  | inspection (pretty : Bool)
  /-- Compare with the set of the keys in a list. -/
  | equals (keys : List K)
  /-- Make steps on a set of their own. -/
  | fork (steps : List (KeysStep K))

/-- The answer to a step. -/
inductive KeysAnswer (K : Type) where
  /-- Whether it is so, or had an effect. -/
  | flag (value : Bool)
  /-- A number of keys. -/
  | size (keys : Nat)
  /-- Some keys. -/
  | keys (keys : List K)
  /-- An inspection text. -/
  | text (text : String)
  /-- The change broke off. -/
  | fault (fault : Fault)
  /-- The answers of a fork, each with the number of keys after it, and its last keys. -/
  | fork (answers : List (KeysAnswer K × Nat)) (keys : List K)

namespace KeysStep

variable {S K : Type} [Collection S K]

mutual

/-- What a step comes to. -/
def perform (s : S) : KeysStep K → KeysAnswer K × S
  | .change c =>
    match OrderedSet.apply c s with
    | (.ok changed, s) => (.flag changed, s)
    | (.error f, s) => (.fault f, s)
  | .contains key => (.flag (OrderedSet.contains key s), s)
  | .size => (.size (OrderedSet.size s), s)
  | .isEmpty => (.flag (OrderedSet.isEmpty s), s)
  | .keys => (.keys (OrderedSet.toList s), s)
  | .reversed => (.keys (OrderedSet.toList s).reverse, s)
  | .inspection pretty => (.text ((inspect s).text pretty), s)
  | .equals ks => (.flag (s == Collection.ofList ks), s)
  | .fork steps =>
    let (answers, forked) := performAll s steps
    (.fork answers (OrderedSet.toList forked), s)

/-- What several steps come to, each with the number of keys after it. -/
def performAll (s : S) : List (KeysStep K) → List (KeysAnswer K × Nat) × S
  | [] => ([], s)
  | step :: steps =>
    let (answer, s) := perform s step
    let (answers, last) := performAll s steps
    ((answer, OrderedSet.size s) :: answers, last)

end

/-- A session that starts from the set of the keys in a list, answered as a fork is. -/
def session (S : Type) [Collection S K] (keys : List K) (steps : List (KeysStep K)) :
    KeysAnswer K :=
  let (answers, last) := performAll (Collection.ofList keys : S) steps
  .fork answers (OrderedSet.toList last)

end KeysStep

end LeftRight
