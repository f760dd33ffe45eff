import LeftRight.Gate
import LeftRight.OrderedSet.Basic
import LeftRight.Strategy

/-!
# Traces

What can be seen of a run: the answers to what was asked, and the events on the way, such as
the calls of the wait strategy, the changes of the copies and the log.
-/

namespace LeftRight

/-- The answer to something that was asked or done. -/
inductive Answer (K : Type) where
  /-- It is done. -/
  | done
  /-- Yes or no. -/
  | flag (value : Bool)
  /-- A number of keys. -/
  | size (keys : Nat)
  /-- A number of slots or of readers. -/
  | count (number : Nat)
  /-- A version. -/
  | version (version : Version)
  /-- A side. -/
  | side (side : Side)
  /-- A span of time, or none. -/
  | duration (duration : Option Duration)
  /-- An inspection text. -/
  | text (text : String)
  /-- What can be seen of a gate. -/
  | view (view : View)
  /-- The keys of a copy. -/
  | keys (keys : List K)
  /-- The keys of both copies. -/
  | copies (left right : List K)
  /-- The threads that were made to leave, in this order. -/
  | forced (threads : List Nat)
  /-- It broke off. -/
  | fault (fault : Fault)
  /-- It is not allowed. -/
  | refused
  /-- The thread is not inside. -/
  | notInside
  /-- The set has been taken apart before. -/
  | consumed
  deriving DecidableEq, Repr

/-- The answer for an outcome, where a value is answered as `answer` says. -/
def Answer.ofOutcome {K α : Type} (answer : α → Answer K) : Except Fault α → Answer K
  | .ok value => answer value
  | .error f => .fault f

/-- Something that happened on the way. -/
inductive Event (K : Type) where
  /-- The strategy was handed the configuration, and is in this state since. -/
  | configured (config : Config) (strategy : Strategy)
  /-- Logged: a set was built. -/
  | created (slots : Nat) (slotsPerCore : UInt64)
  /-- Logged: a writer begins to switch versions. -/
  | toggling (previous next : Version)
  /-- Logged: readers held a version for longer than the threshold. -/
  | slowDrain (version : Version) (polls : Nat)
  /-- The strategy started anew, for the next drain. -/
  | reset (strategy : Strategy) (view : Except Fault View)
  /-- A poll found readers; others acted, and the strategy paused. -/
  | waited (did : List (Answer K)) (strategy : Strategy) (view : Except Fault View)
  /-- A poll found readers; others acted, those inside were let go and the pause broke off. -/
  | waitRaised (did : List (Answer K)) (released : List Nat)
  /-- A poll found readers, and nothing more is going to happen. -/
  | stuck
  /-- A thread was assigned to a slot. -/
  | slot (thread slots slot : Nat)
  /-- A copy was changed; without a result the change broke off. -/
  | changed (change : Change K) (side : Side) (result : Option Bool)
  /-- A key was looked up in a copy. -/
  | looked (key : K) (side : Side) (result : Bool)
  /-- The keys of a copy were counted. -/
  | measured (side : Side) (keys : Nat)
  deriving Repr

/-- Whether an event goes to the log. The others are calls of what the set is made of. -/
def Event.isLogged {K : Type} : Event K → Bool
  | created .. | toggling .. | slowDrain .. => true
  | _ => false

/-- The events for a listener who wants the log, or the others, or both. -/
def Event.heard {K : Type} (calls log : Bool) (events : List (Event K)) : List (Event K) :=
  events.filter fun e => if e.isLogged then log else calls

end LeftRight
