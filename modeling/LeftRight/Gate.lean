import LeftRight.Duration
import LeftRight.Indicator
import LeftRight.Side

/-!
# The gate

A gate tells readers which copy to look at, and counts them on its indicator, so that a
writer can wait until nobody can still be looking at the other copy.
-/

namespace LeftRight

/-- What can be seen of a gate at one moment. -/
structure View where
  /-- The side that new readers look at. -/
  visible : Side
  /-- The version under which new readers arrive. -/
  current : Version
  /-- The readers counted under version zero. -/
  readersZero : Nat
  /-- The readers counted under version one. -/
  readersOne : Nat
  deriving DecidableEq, Repr

/-- The selector of the visible copy, with the indicator of those who may look at a copy. -/
structure Gate where
  /-- The side that new readers look at. -/
  selector : Side := .left
  /-- Where readers announce themselves. -/
  indicator : Indicator
  /-- The drain time beyond which a drain is logged; without it none is. -/
  slowDrain : Option Duration
  deriving DecidableEq, Repr

namespace Gate

/-- A gate of so many slots that sends readers to the left copy. -/
def create (slots : Nat) (slowDrain : Option Duration) : Except Fault Gate :=
  (Indicator.create slots).map fun indicator => { indicator, slowDrain }

/-- Send new readers to a side. -/
def publish (side : Side) (g : Gate) : Gate := { g with selector := side }

/-- Let new readers arrive under a version. -/
def switch (v : Version) (g : Gate) : Gate := { g with indicator := g.indicator.switch v }

/-- What can be seen of the gate, if its readers can be counted. -/
def view (g : Gate) : Except Fault View := do
  let readersZero ← g.indicator.readers .zero
  let readersOne ← g.indicator.readers .one
  return { visible := g.selector, current := g.indicator.current, readersZero, readersOne }

/-- Whether a drain that took so many nanoseconds is slow. -/
def isSlow (nanos : Nat) (g : Gate) : Bool := g.slowDrain.any (·.nanos < nanos)

/-- The inspection text, which needs the number of readers of both versions. -/
def inspection (g : Gate) : Except Fault Inspection := do
  let indicator ← g.indicator.inspection
  return .record "VersionGate" [
    ("selector", .record "CachePadded" [("value", inspect g.selector.index)]),
    ("indicator", indicator),
    ("slow_drain", inspect g.slowDrain)]

end Gate

end LeftRight
