import LeftRight.Proofs.Draining
import LeftRight.Session.Script

/-!
# The pauses of a script

In which states the moves of a script are made. A run that waits can be looked at in any of its
pauses by letting that pause break off. So something can be asked of each move of a script in the
very state in which it is made, whatever the waits of the run are; and what is asked of a toggle, or
of a wait, is then asked of its parts.
-/

namespace LeftRight

namespace Gated

variable {K C α : Type}

/-- A pause that breaks off at once. -/
def halt (fault : Fault) : Poll K C := fun g => (.error fault, g)

/-- Whether a run comes after some pauses to one in this state: if that pause breaks off, for
whatever reason, the run breaks off there for the same reason. -/
def PausesAt (run : List (Poll K C) → Except Fault α × Gated K C) (before : List (Poll K C))
    (g : Gated K C) : Prop :=
  ∀ fault, run (before ++ [halt fault]) = (.error fault, g)

variable {polls before used rest : List (Poll K C)} {poll : Poll K C} {v : Version} {count : Nat}
  {g g₁ g' : Gated K C}

/-- A wait for a version that is not empty begins with a pause. -/
theorem pausesAt_awaitEmpty (hv : ¬ g.gate.indicator.isEmpty v = true) (count : Nat) :
    PausesAt (fun polls => g.awaitEmpty v polls count) [] g := by
  intro fault
  dsimp only [List.nil_append]
  rw [awaitEmpty.eq_def, if_neg hv]
  rfl

theorem awaitEmpty_cons_of_ok (hv : ¬ g.gate.indicator.isEmpty v = true)
    (hpoll : poll g = (.ok (), g₁)) (polls : List (Poll K C)) :
    g.awaitEmpty v (poll :: polls) count = g₁.awaitEmpty v polls (count + 1) := by
  rw [awaitEmpty.eq_def, if_neg hv]
  simp only [hpoll]

theorem awaitEmpty_cons_of_error (hv : ¬ g.gate.indicator.isEmpty v = true) {fault : Fault}
    (hpoll : poll g = (.error fault, g₁)) (polls : List (Poll K C)) :
    g.awaitEmpty v (poll :: polls) count = (.error fault, g₁) := by
  rw [awaitEmpty.eq_def, if_neg hv]
  simp only [hpoll]

/-- The pauses after the first one are those of the wait that goes on after it. -/
theorem PausesAt.awaitEmpty_cons
    (h : PausesAt (fun polls => g₁.awaitEmpty v polls (count + 1)) before g')
    (hv : ¬ g.gate.indicator.isEmpty v = true) (hpoll : poll g = (.ok (), g₁)) :
    PausesAt (fun polls => g.awaitEmpty v polls count) (poll :: before) g' := by
  intro fault
  dsimp only [List.cons_append]
  rw [awaitEmpty_cons_of_ok hv hpoll]
  exact h fault

/-- A pause of the first wait is one of the toggle. -/
theorem PausesAt.of_firstWait (h : PausesAt (fun polls =>
    g.firstWait.awaitEmpty g.gate.indicator.current.other polls 0) before g') :
    PausesAt (fun polls => g.toggle polls) before g' :=
  fun fault => (Toggled.first (h fault)).eq

/-- A pause of the second wait is one of the toggle, after those of the first wait. -/
theorem PausesAt.of_secondWait
    (hfirst : ∀ more, g.firstWait.awaitEmpty g.gate.indicator.current.other (used ++ more) 0 =
      (.ok more, g₁))
    (h : PausesAt (fun polls => (g₁.secondWait g.gate.indicator.current.other).awaitEmpty
      g.gate.indicator.current polls 0) before g') :
    PausesAt (fun polls => g.toggle polls) (used ++ before) g' := by
  intro fault
  dsimp only
  rw [List.append_assoc]
  exact (Toggled.second (hfirst _) (h fault)).eq

end Gated

namespace Company

open Gated

variable {R K C α : Type} {company : Company R K C} {Fits : R → Gated K C → Prop}
  {script : Script R} {moves : List (Move R)} {v : Version} {count : Nat} {g g₁ : Gated K C}

/-- The pauses of a script, but for the one after it. -/
def turns (company : Company R K C) (script : Script R) : List (Poll K C) :=
  script.map fun moves => company.turn moves []

/-- Whether each request that is made in a pause fits when it is made. -/
def FitsMoves (company : Company R K C) (Fits : R → Gated K C → Prop) :
    List (Move R) → Gated K C → Prop
  | .ask request :: moves, g =>
    Fits request g ∧ company.FitsMoves Fits moves (company.perform request g).2
  | _, _ => True

instance [∀ request g, Decidable (Fits request g)] : (moves : List (Move R)) → (g : Gated K C) →
    Decidable (company.FitsMoves Fits moves g)
  | .ask request :: moves, g =>
    have : Decidable (company.FitsMoves Fits moves (company.perform request g).2) :=
      instDecidableFitsMoves moves _
    inferInstanceAs (Decidable (_ ∧ _))
  | .raise _ :: _, _ => .isTrue trivial
  | [], _ => .isTrue trivial

/-- Whether each request of a script fits when it is made during a run. -/
def FitsDuring (company : Company R K C) (Fits : R → Gated K C → Prop) (script : Script R)
    (run : List (Poll K C) → Except Fault α × Gated K C) : Prop :=
  ∀ n moves g, script[n]? = some moves → PausesAt run (company.turns (script.take n)) g →
    company.FitsMoves Fits moves g

/-- It is enough to look at each pause once, and whether the run comes to it or not. -/
theorem fitsDuring_of_pauses {run : List (Poll K C) → Except Fault α × Gated K C}
    (h : ∀ n (hn : n < script.length), company.FitsMoves Fits script[n]
      (run (company.turns (script.take n) ++ [halt .stuck])).2) :
    company.FitsDuring Fits script run := by
  intro n moves g hmoves hpause
  obtain ⟨hn, rfl⟩ := List.getElem?_eq_some_iff.mp hmoves
  have hstate := h n hn
  rwa [hpause .stuck] at hstate

theorem polls_eq (company : Company R K C) (script : Script R) :
    company.polls script = company.turns script ++ [company.lastTurn] := rfl

theorem turns_split (company : Company R K C) (script : Script R) (k : Nat) :
    company.turns script = company.turns (script.take k) ++ company.turns (script.drop k) := by
  rw [turns, turns, turns, ← List.map_append, List.take_append_drop]

/-- What fits in the first pause of a wait. -/
theorem FitsDuring.head
    (h : company.FitsDuring Fits (moves :: script) fun polls => g.awaitEmpty v polls count)
    (hv : ¬ g.gate.indicator.isEmpty v = true) : company.FitsMoves Fits moves g :=
  h 0 moves g rfl (pausesAt_awaitEmpty hv count)

/-- What fits in the pauses of a wait after the first one. -/
theorem FitsDuring.tail
    (h : company.FitsDuring Fits (moves :: script) fun polls => g.awaitEmpty v polls count)
    (hv : ¬ g.gate.indicator.isEmpty v = true) (hturn : company.turn moves [] g = (.ok (), g₁)) :
    company.FitsDuring Fits script fun polls => g₁.awaitEmpty v polls (count + 1) := by
  intro n moves' g' hmoves' hpause
  exact h (n + 1) moves' g' hmoves' (hpause.awaitEmpty_cons hv hturn)

/-- What fits in a toggle fits in its first wait. -/
theorem FitsDuring.firstWait (h : company.FitsDuring Fits script fun polls => g.toggle polls) :
    company.FitsDuring Fits script fun polls =>
      g.firstWait.awaitEmpty g.gate.indicator.current.other polls 0 :=
  fun n moves g' hmoves hpause => h n moves g' hmoves hpause.of_firstWait

/-- What fits in a toggle fits in its second wait. -/
theorem FitsDuring.secondWait (h : company.FitsDuring Fits script fun polls => g.toggle polls)
    {k : Nat} (hfirst : ∀ more, g.firstWait.awaitEmpty g.gate.indicator.current.other
      (company.turns (script.take k) ++ more) 0 = (.ok more, g₁)) :
    company.FitsDuring Fits (script.drop k) fun polls =>
      (g₁.secondWait g.gate.indicator.current.other).awaitEmpty g.gate.indicator.current polls
        0 := by
  intro n moves g' hmoves hpause
  rw [List.getElem?_drop] at hmoves
  refine h (k + n) moves g' hmoves ?_
  have hsplit : company.turns (script.take (k + n)) =
      company.turns (script.take k) ++ company.turns ((script.drop k).take n) := by
    rw [List.take_add, turns, List.map_append, turns, turns]
  rw [hsplit]
  exact hpause.of_secondWait hfirst

/-- What fits during a run fits if the script is cut short. -/
theorem FitsDuring.take {run : List (Poll K C) → Except Fault α × Gated K C}
    (h : company.FitsDuring Fits script run) (k : Nat) :
    company.FitsDuring Fits (script.take k) run := by
  intro n moves g hmoves hpause
  rw [List.getElem?_take] at hmoves
  split at hmoves
  · rename_i hlt
    rw [List.take_take, Nat.min_eq_left hlt.le] at hpause
    exact h n moves g hmoves hpause
  · cases hmoves

end Company

end LeftRight
