import LeftRight.OrderedSet.Basic

/-!
# Rigged sets

A set of which single changes are made to fail. The changes are numbered from zero; one that
is rigged does not reach the set but reports what it was told to, or breaks off.
-/

namespace LeftRight

/-- What a rigged change does. -/
inductive Rig where
  /-- It reports an effect or none. -/
  | report (changed : Bool)
  /-- It breaks off with a message. -/
  | raise (message : String)
  deriving DecidableEq, Repr

/-- What a rigged change comes to. -/
def Rig.outcome : Rig → Except Fault Bool
  | report changed => .ok changed
  | raise message => .error (.raised message)

/-- A set with rigged changes. -/
structure Rigged (S : Type) where
  /-- The set that the changes reach if they are not rigged. -/
  set : S
  /-- The number of changes so far, rigged or not. -/
  calls : Nat := 0
  /-- The rigged changes, by number. -/
  rigs : List (Nat × Rig) := []

instance {S K : Type} [OrderedSet S K] : OrderedSet (Rigged S) K where
  empty := { set := OrderedSet.empty }
  apply change s :=
    let (outcome, set) := match s.rigs.lookup s.calls with
      | some rig => (rig.outcome, s.set)
      | none => OrderedSet.apply change s.set
    (outcome, { s with set, calls := s.calls + 1 })
  contains k s := OrderedSet.contains k s.set
  size s := OrderedSet.size s.set
  toList s := OrderedSet.toList s.set

end LeftRight
