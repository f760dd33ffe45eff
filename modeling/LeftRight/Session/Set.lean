import LeftRight.Session.Script
import LeftRight.TwinSet.Basic

/-!
# Set sessions

Sessions in which a twin set is read, changed and at last taken apart, step by step. Readers
may stay inside from step to step; they may not while the set is taken apart.
-/

namespace LeftRight

/-- What can be asked of a set, or done to it, without waiting. -/
inductive SetRequest (K : Type) where
  /-- Ask whether a key is present. -/
  | contains (key : K) (thread : Nat)
  /-- Ask for the number of keys. -/
  | size (thread : Nat)
  /-- Ask whether there are no keys. -/
  | isEmpty (thread : Nat)
  /-- Ask for the keys. -/
  | keys (thread : Nat)
  /-- Read, and break off with a message. -/
  | raise (message : String) (thread : Nat)
  /-- Begin to read, and stay inside. -/
  | enter (thread : Nat)
  /-- End the newest read of a thread, and perhaps break it off with a message. -/
  | leave (thread : Nat) (message : Option String)
  /-- Ask for the visible side. -/
  | visible
  /-- Ask for the side that is not visible. -/
  | otherSide
  /-- Ask for the inspection text. -/
  | inspection (pretty : Bool)
  /-- Ask for what can be seen of the gate. -/
  | view
  deriving DecidableEq, Repr

/-- A step of a session with a set. -/
inductive SetStep (K : Type) where
  /-- A request. -/
  | ask (request : SetRequest K)
  /-- A write, during which others follow a script. -/
  | write (change : Change K) (script : Script (SetRequest K))
  /-- Take the set apart, into both copies. -/
  | intoCopies
  /-- Take the set apart, into the visible copy. -/
  | intoInner
  deriving Repr

namespace TwinSet

variable {S K : Type} [OrderedSet S K]

/-- Let readers leave one after another. -/
def leaveAll (readers : List Reader) (g : TwinSet S K) : TwinSet S K :=
  readers.foldl (fun g reader => (leave reader g).2) g

/-- Let all readers leave, by ascending thread and each thread's newest read first. -/
def release (g : TwinSet S K) : List Nat × TwinSet S K :=
  let readers := g.content.inside.mergeSort fun a b => a.thread ≤ b.thread
  (readers.map Reader.thread, leaveAll readers g)

/-- The keys of the copy at which a reader looks. -/
def seenBy (reader : Reader) (g : TwinSet S K) : List K :=
  OrderedSet.toList (g.content.copies.get reader.side)

/-- What a request to a set comes to. Whether readers may stay inside depends on the set;
thread zero never may, because it writes. -/
def perform (mayStay : Bool) (request : SetRequest K) (g : TwinSet S K) :
    Answer K × TwinSet S K :=
  match request with
  | .contains key thread =>
    let (outcome, g) := contains thread key g
    (.ofOutcome .flag outcome, g)
  | .size thread =>
    let (outcome, g) := size thread g
    (.ofOutcome .size outcome, g)
  | .isEmpty thread =>
    let (outcome, g) := isEmpty thread g
    (.ofOutcome .flag outcome, g)
  | .keys thread =>
    let (outcome, g) := toList thread g
    (.ofOutcome .keys outcome, g)
  | .raise message thread =>
    let (outcome, g) := read thread (fun _ _ => ([], .error (.raised message))) g
    (.ofOutcome (fun () => .done) outcome, g)
  | .enter thread =>
    if mayStay && thread != 0 then
      let (outcome, g) := enter thread g
      (.ofOutcome (fun reader => .keys (seenBy reader g)) outcome, g)
    else (.refused, g)
  | .leave thread message =>
    match g.content.inside.find? (·.thread == thread) with
    | none => (.notInside, g)
    | some reader =>
      let seen := match message with
        | some message => .error (.raised message)
        | none => .ok (seenBy reader g)
      let (outcome, g) := leave reader g
      (.ofOutcome .keys (outcome >>= fun () => seen), g)
  | .visible => (.side g.gate.selector, g)
  | .otherSide => (.side g.gate.selector.other, g)
  | .inspection pretty => (.ofOutcome (fun t => .text (t.text pretty)) (inspection g), g)
  | .view => (.ofOutcome .view g.gate.view, g)

/-- Those who use a set besides its writer. -/
def company (mayStay : Bool) : Company (SetRequest K) K (Twin S) where
  perform := perform mayStay
  release := release

/-- The answer to taking a set apart: its keys as asked for, unless someone is inside. -/
def takeApart (answer : Answer K) (g : TwinSet S K) : Answer K :=
  if g.content.inside.isEmpty then answer else .refused

end TwinSet

/-- A session with a set. -/
structure SetSession (S K : Type) where
  /-- The set. -/
  set : TwinSet S K
  /-- Whether readers may stay inside from step to step. -/
  mayStay : Bool
  /-- Whether the set has been taken apart. -/
  consumed : Bool := false

namespace SetSession

open TwinSet

variable {S K : Type} [OrderedSet S K]

/-- What a step comes to. -/
def perform (step : SetStep K) (s : SetSession S K) : Answer K × SetSession S K :=
  if s.consumed then (.consumed, s) else
  match step with
  | .ask request =>
    let (answer, set) := TwinSet.perform s.mayStay request s.set
    (answer, { s with set })
  | .write change script =>
    let (outcome, set) := write change ((company s.mayStay).polls script) s.set
    (.ofOutcome .flag outcome, { s with set })
  | .intoCopies =>
    let copies := Answer.copies (OrderedSet.toList s.set.content.copies.left)
      (OrderedSet.toList s.set.content.copies.right)
    (takeApart copies s.set, { s with consumed := s.set.content.inside.isEmpty })
  | .intoInner =>
    let keys := Answer.keys (OrderedSet.toList (visibleCopy s.set))
    (takeApart keys s.set, { s with consumed := s.set.content.inside.isEmpty })

/-- Several steps one after another: the answer to each, with its events. -/
def run (steps : List (SetStep K)) (s : SetSession S K) :
    List (Answer K × List (Event K)) × SetSession S K :=
  transcript perform (fun s => let (events, set) := s.set.takeEvents; (events, { s with set }))
    steps s

/-- What a session ends with. -/
structure Ending (K : Type) where
  /-- The threads that were made to leave, in this order. -/
  released : List Nat
  /-- The visible side and the keys of both copies, unless the set was taken apart. -/
  final : Option (Side × List K × List K)
  deriving DecidableEq, Repr

/-- End a session: all readers leave, and the copies are looked at. -/
def finish (s : SetSession S K) : Ending K :=
  let (released, set) := release s.set
  { released
    final := if s.consumed then none else
      some (set.gate.selector, OrderedSet.toList set.content.copies.left,
        OrderedSet.toList set.content.copies.right) }

end SetSession

end LeftRight
