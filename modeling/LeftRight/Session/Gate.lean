import LeftRight.Session.Script

/-!
# Gate sessions

What can be asked of an indicator and of a gate, and sessions in which a gate is asked and
toggled, step by step.
-/

namespace LeftRight

/-- What can be asked of an indicator, or done to it. -/
inductive IndicatorRequest where
  /-- Announce a reader. -/
  | arrive (slot : Nat)
  /-- Retract a reader. -/
  | depart (slot : Nat) (version : Version)
  /-- Ask whether nobody is counted under a version. -/
  | isEmpty (version : Version)
  /-- Ask how many are counted under a version. -/
  | readers (version : Version)
  /-- Ask for the number of slots. -/
  | slots
  /-- Ask for the current version. -/
  | current
  /-- Ask for the version that is not current. -/
  | otherVersion
  /-- Ask for the inspection text. -/
  | inspection (pretty : Bool)
  deriving DecidableEq, Repr

/-- What a request to an indicator comes to. -/
def Indicator.perform {K : Type} (request : IndicatorRequest) (i : Indicator) :
    Answer K × Indicator :=
  match request with
  | .arrive slot =>
    let (outcome, i) := i.arrive slot
    (.ofOutcome .version outcome, i)
  | .depart slot version =>
    let (outcome, i) := i.depart slot version
    (.ofOutcome (fun () => .done) outcome, i)
  | .isEmpty version => (.flag (i.isEmpty version), i)
  | .readers version => (.ofOutcome .count (i.readers version), i)
  | .slots => (.count i.size, i)
  | .current => (.version i.current, i)
  | .otherVersion => (.version i.current.other, i)
  | .inspection pretty => (.ofOutcome (fun t => .text (t.text pretty)) i.inspection, i)

/-- Requests to an indicator one after another, with the answer to each. -/
def Indicator.session {K : Type} : List IndicatorRequest → Indicator → List (Answer K) × Indicator
  | [], i => ([], i)
  | request :: requests, i =>
    let (answer, i) := i.perform request
    let (answers, i) := session requests i
    (answer :: answers, i)

/-- What can be asked of a gate, or done to it, without waiting. -/
inductive GateRequest where
  /-- Ask the indicator. -/
  | indicator (request : IndicatorRequest)
  /-- Ask for the visible side. -/
  | visible
  /-- Ask for the side that is not visible. -/
  | otherSide
  /-- Send new readers to a side. -/
  | publish (side : Side)
  /-- Ask for the threshold of slow drains. -/
  | slowDrain
  /-- Ask for the inspection text. -/
  | inspection (pretty : Bool)
  /-- Ask for what can be seen of the gate. -/
  | view
  deriving DecidableEq, Repr

/-- What a request to a gate comes to. -/
def Gate.perform {K : Type} (request : GateRequest) (g : Gate) : Answer K × Gate :=
  match request with
  | .indicator request =>
    let (answer, indicator) := g.indicator.perform request
    (answer, { g with indicator })
  | .visible => (.side g.selector, g)
  | .otherSide => (.side g.selector.other, g)
  | .publish side => (.done, g.publish side)
  | .slowDrain => (.duration g.slowDrain, g)
  | .inspection pretty => (.ofOutcome (fun t => .text (t.text pretty)) g.inspection, g)
  | .view => (.ofOutcome .view g.view, g)

/-- A gate alone, that guards nothing. -/
abbrev BareGate := Gated Empty Unit

namespace BareGate

/-- Those who use a gate make requests of it. The gate does not know who they are, so nobody
can be let go. -/
def company : Company GateRequest Empty Unit where
  perform request g :=
    let (answer, gate) := g.gate.perform request
    (answer, { g with gate })
  release g := ([], g)

/-- A step of a session with a gate. -/
inductive Step where
  /-- A request. -/
  | ask (request : GateRequest)
  /-- A switch of versions, during which others follow a script. -/
  | toggle (script : Script GateRequest)
  deriving Repr

/-- What a step comes to. -/
def perform (step : Step) (g : BareGate) : Answer Empty × BareGate :=
  match step with
  | .ask request => company.perform request g
  | .toggle script =>
    let (outcome, g) := g.toggle (company.polls script)
    (.ofOutcome (fun () => .done) outcome, g)

/-- A session with a gate. -/
def session (steps : List Step) (g : BareGate) :
    List (Answer Empty × List (Event Empty)) × BareGate :=
  transcript perform Gated.takeEvents steps g

end BareGate

end LeftRight
