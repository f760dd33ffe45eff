import LeftRight.Assigner
import LeftRight.Copies
import LeftRight.Drain

/-!
# Twin sets

A set in two copies behind a gate. Readers announce themselves, look at the visible copy and
leave. A writer changes the hidden copy, publishes it, waits until nobody looks at the other
one, and makes the same change there. A change that has no effect on the hidden copy ends the
write at once.
-/

namespace LeftRight

/-- A reader who has announced itself and looks at a copy. -/
structure Reader where
  /-- The thread that reads. -/
  thread : Nat
  /-- The slot on which the reader is counted. -/
  slot : Nat
  /-- The version under which the reader is counted. -/
  version : Version
  /-- The copy at which the reader looks. -/
  side : Side
  deriving DecidableEq, Repr

/-- The two copies of a set, with those who are looking at them. -/
structure Twin (S : Type) where
  /-- The copies. -/
  copies : Copies S
  /-- The readers inside, the newest first. -/
  inside : List Reader := []
  /-- Says on which slot a reader is counted. -/
  assigner : Assigner
  /-- How often the assigner was asked. -/
  assigned : Nat := 0

/-- A set in two copies behind a gate. -/
abbrev TwinSet (S K : Type) := Gated K (Twin S)

/-- The reasons for which a set is not built. -/
inductive BuildError where
  /-- The configuration cannot be used. -/
  | config (error : ConfigError)
  /-- The building broke off. -/
  | fault (fault : Fault)
  deriving DecidableEq, Repr

namespace TwinSet

variable {S K α : Type}

/-- Build a set of two given copies, after its strategy has been handed the configuration. -/
def create (detected : Option Parallelism) (config : Config) (assigner : Assigner)
    (strategy : Strategy) (copies : Copies S) : Except BuildError (TwinSet S K) :=
  match config.slotCount detected with
  | .error error => .error (.config error)
  | .ok slots =>
    let strategy := strategy.configure config
    match Gate.create slots config.slowDrain with
    | .error fault => .error (.fault fault)
    | .ok gate => .ok {
        gate, strategy
        content := { copies, assigner }
        events := [.configured config strategy, .created slots config.slotsPerCore] }

/-- Build an empty set with hashed slots and a writer that backs off. -/
def ofConfig [OrderedSet S K] (detected : Option Parallelism) (config : Config) :
    Except BuildError (TwinSet S K) :=
  create detected config .hashed (.backoff (.fresh none)) ⟨OrderedSet.empty, OrderedSet.empty⟩

/-- The copy at which new readers look. -/
def visibleCopy (g : TwinSet S K) : S := g.content.copies.get g.gate.selector

/-- Announce a reader and let it look at the visible copy. -/
def enter (thread : Nat) (g : TwinSet S K) : Except Fault Reader × TwinSet S K :=
  let slots := g.gate.indicator.size
  let assignment := g.content.assigner.slot g.content.assigned thread slots
  let g : TwinSet S K := { g with content.assigned := g.content.assigned + 1 }
  match assignment with
  | .error fault => (.error fault, g)
  | .ok slot =>
    let g : TwinSet S K := g.record (.slot thread slots slot)
    match g.gate.indicator.arrive slot with
    | (.error fault, _) => (.error fault, g)
    | (.ok version, indicator) =>
      let reader : Reader := { thread, slot, version, side := g.gate.selector }
      (.ok reader, { g with
        gate.indicator := indicator
        content.inside := reader :: g.content.inside })

/-- Let a reader leave. -/
def leave (reader : Reader) (g : TwinSet S K) : Except Fault Unit × TwinSet S K :=
  let (outcome, indicator) := g.gate.indicator.depart reader.slot reader.version
  (outcome, { g with
    gate.indicator := indicator
    content.inside := g.content.inside.erase reader })

/-- Look at the visible copy as an announced reader, who leaves even if the look breaks off.
The look is told the side of its copy, and what it notes goes to the trace. -/
def read (thread : Nat) (look : Side → S → List (Event K) × Except Fault α)
    (g : TwinSet S K) : Except Fault α × TwinSet S K :=
  match enter thread g with
  | (.error fault, g) => (.error fault, g)
  | (.ok reader, g) =>
    let (noted, result) := look reader.side (g.content.copies.get reader.side)
    match leave reader { g with events := g.events ++ noted } with
    | (.error fault, g) => (.error fault, g)
    | (.ok (), g) => (result, g)

section Operations

variable [OrderedSet S K]

/-- Whether a key is present. -/
def contains (thread : Nat) (key : K) : TwinSet S K → Except Fault Bool × TwinSet S K :=
  read thread fun side copy =>
    let present := OrderedSet.contains key copy
    ([.looked key side present], .ok present)

/-- The number of keys. -/
def size (thread : Nat) : TwinSet S K → Except Fault Nat × TwinSet S K :=
  read thread fun side copy =>
    let keys := OrderedSet.size copy
    ([.measured side keys], .ok keys)

/-- Whether the set holds no keys. -/
def isEmpty (thread : Nat) : TwinSet S K → Except Fault Bool × TwinSet S K :=
  read thread fun side copy =>
    ([.measured side (OrderedSet.size copy)], .ok (OrderedSet.isEmpty copy))

/-- The keys of the visible copy. -/
def toList (thread : Nat) : TwinSet S K → Except Fault (List K) × TwinSet S K :=
  read thread fun _ copy => ([], .ok (OrderedSet.toList copy))

/-- Change the copy on a side. -/
def mutate (side : Side) (change : Change K) (g : TwinSet S K) :
    Except Fault Bool × TwinSet S K :=
  let (outcome, copy) := OrderedSet.apply change (g.content.copies.get side)
  let g : TwinSet S K := { g with content.copies := g.content.copies.set side copy }
  (outcome, g.record (.changed change side outcome.toOption))

/-- Change the set: first the hidden copy, then, after that one was published and the other
one is free of readers, the other one. -/
def write (change : Change K) (polls : List (Poll K (Twin S))) (g : TwinSet S K) :
    Except Fault Bool × TwinSet S K :=
  let visible := g.gate.selector
  match mutate visible.other change g with
  | (.error fault, g) => (.error fault, g)
  | (.ok false, g) => (.ok false, g)
  | (.ok true, g) =>
    match (g.publish visible.other).toggle polls with
    | (.error fault, g) => (.error fault, g)
    | (.ok (), g) =>
      match mutate visible change g with
      | (.error fault, g) => (.error fault, g)
      | (.ok false, g) => (.error .diverged, g)
      | (.ok true, g) => (.ok true, g)

end Operations

/-- The inspection text, which leaves the copies out. -/
def inspection (g : TwinSet S K) : Except Fault Inspection := do
  return .recordWith false "LeftRightSet" [("gate", ← g.gate.inspection)]

end TwinSet

end LeftRight
