import LeftRight.Drain

/-!
# Scripts

A script says what others do while a writer waits: one entry for each poll that finds
readers. When the script is used up, those who are still inside are let go, and if nobody
is, the writer is stuck.
-/

namespace LeftRight

/-- One thing that happens during a pause. -/
inductive Move (R : Type) where
  /-- Something is asked or done. -/
  | ask (request : R)
  /-- The pause breaks off with a message. -/
  | raise (message : String)
  deriving Repr

/-- What happens during each pause, one pause after another. -/
abbrev Script (R : Type) := List (List (Move R))

/-- Those who use a gate besides its writer. -/
structure Company (R K C : Type) where
  /-- What a request comes to. -/
  perform : R → Gated K C → Answer K × Gated K C
  /-- Let all leave who are inside, and name them in this order. -/
  release : Gated K C → List Nat × Gated K C

namespace Company

variable {R K C : Type}

/-- A pause in which the moves are made in turn, after those that are `did` already. -/
def turn (company : Company R K C) : List (Move R) → List (Answer K) → Poll K C
  | [], did, g => (.ok (), g.pause did)
  | .raise message :: _, did, g =>
    let (released, g) := company.release g
    (.error (.raised message), g.record (.waitRaised did released))
  | .ask request :: moves, did, g =>
    let (answer, g) := company.perform request g
    turn company moves (did ++ [answer]) g

/-- The pause after the last entry of a script, in which all are let go. -/
def lastTurn (company : Company R K C) : Poll K C := fun g =>
  match company.release g with
  | ([], g) => (.error .stuck, g.record .stuck)
  | (released, g) => (.ok (), g.pause [.forced released])

/-- The pauses of a script. -/
def polls (company : Company R K C) (script : Script R) : List (Poll K C) :=
  script.map (fun moves => company.turn moves []) ++ [company.lastTurn]

end Company

/-- Take the events out of a trace. -/
def Gated.takeEvents {K C : Type} (g : Gated K C) : List (Event K) × Gated K C :=
  (g.events, { g with events := [] })

/-- The steps of a session one after another: the answer to each, with its events. -/
def transcript {σ T K : Type} (perform : T → σ → Answer K × σ)
    (takeEvents : σ → List (Event K) × σ) : List T → σ → List (Answer K × List (Event K)) × σ
  | [], s => ([], s)
  | step :: steps, s =>
    let (answer, s) := perform step s
    let (events, s) := takeEvents s
    let (rest, s) := transcript perform takeEvents steps s
    ((answer, events) :: rest, s)

end LeftRight
