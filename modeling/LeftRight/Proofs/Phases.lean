import LeftRight.Proofs.Backoffs
import LeftRight.Proofs.Toggling

/-!
# The drains of a run

What a run calls of its writer's wait strategy, as its trace tells. Each drain begins with a
restart, and then pauses as often as it polls in vain. Nothing else calls the strategy, whether a
wait ends or breaks off, so the calls of a run are those of its drains, one after the other.
-/

namespace LeftRight

open Strategy

/-- The call that an event tells of, with what the strategy came to by it. -/
def Event.told? {K : Type} : Event K → Option (Call × Strategy)
  | configured config strategy => some (.configure config, strategy)
  | reset strategy _ => some (.reset, strategy)
  | waited _ strategy _ => some (.pause 1, strategy)
  | _ => none

/-- The calls that a trace tells of. -/
def Event.calls {K : Type} (events : List (Event K)) : List Call :=
  events.filterMap fun e => e.told?.map Prod.fst

/-- Whether a trace tells what became of a strategy: each call makes of it what is told. -/
def Event.Tell {K : Type} : List (Event K) → Strategy → Prop
  | [], _ => True
  | e :: events, s =>
    (∀ call s', e.told? = some (call, s') → s' = s.perform call) ∧
      Event.Tell events (s.performAll (Event.calls [e]))

namespace Event

variable {K : Type} {events more : List (Event K)} {s : Strategy}

theorem calls_append (events more : List (Event K)) :
    calls (events ++ more) = calls events ++ calls more := List.filterMap_append

theorem tell_append (h : Tell events s) (h' : Tell more (s.performAll (calls events))) :
    Tell (events ++ more) s := by
  induction events generalizing s with
  | nil => exact h'
  | cons e events ih =>
    refine ⟨h.1, ih h.2 ?_⟩
    rwa [← performAll_append, ← calls_append]

/-- What an event tells is what its call made of the strategy as the events before it left it. -/
theorem Tell.of_split {before after : List (Event K)} {e : Event K}
    (h : Tell (before ++ e :: after) s) {call : Call} {s' : Strategy}
    (he : e.told? = some (call, s')) : s' = (s.performAll (calls before)).perform call := by
  induction before generalizing s with
  | nil => exact h.1 call s' he
  | cons b before ih =>
    have hrest := ih h.2
    rwa [← performAll_append, ← calls_append] at hrest

/-- Events that tell of no call. -/
theorem tell_of_untold (h : ∀ e ∈ events, e.told? = none) : calls events = [] ∧ Tell events s := by
  induction events generalizing s with
  | nil => exact ⟨rfl, trivial⟩
  | cons e events ih =>
    have he : e.told? = none := h e List.mem_cons_self
    have hnone : calls [e] = [] := by simp [calls, he]
    obtain ⟨hcalls, htell⟩ := ih fun e he => h e (List.mem_cons_of_mem _ he)
    refine ⟨by rw [← List.singleton_append, calls_append, hnone, hcalls]; rfl, ?_, ?_⟩
    · rw [he]
      exact nofun
    · rwa [hnone]

end Event

/-- The calls of a drain that polls so often in vain. -/
def phase (polls : Nat) : List Call := .reset :: List.replicate polls (.pause 1)

theorem phase_succ (polls : Nat) : phase (polls + 1) = phase polls ++ [.pause 1] := by
  rw [phase, List.replicate_succ', ← List.cons_append]
  rfl

/-- In a drain a restart comes before as many pauses as it has polled in vain. -/
theorem pausesSinceReset_phase (calls : List Call) (polls : Nat) :
    pausesSinceReset (calls ++ phase polls) = polls := by
  induction polls with
  | zero => exact pausesSinceReset_concat_reset calls
  | succ polls ih =>
    rw [phase_succ, ← List.append_assoc, pausesSinceReset_concat _ Call.noConfusion, ih]
    rfl

/-- Drains set no sleep. -/
theorem lastSleep_phases (sleep : Option Duration) (calls : List Call) (phases : List Nat) :
    lastSleep sleep (calls ++ phases.flatMap phase) = lastSleep sleep calls := by
  have hnone : (phases.flatMap phase).filterMap Call.sleep? = [] := by
    rw [List.filterMap_eq_nil_iff]
    intro call hcall
    obtain ⟨polls, -, hcall⟩ := List.mem_flatMap.mp hcall
    rcases List.mem_cons.mp hcall with rfl | hcall
    · rfl
    · rw [List.eq_of_mem_replicate hcall]
      rfl
  rw [lastSleep, List.filterMap_append, hnone, List.append_nil, lastSleep]

/-- Each drain restarts the strategy once. -/
theorem count_reset_phases (phases : List Nat) :
    (phases.flatMap phase).count .reset = phases.length := by
  induction phases with
  | nil => rfl
  | cons polls phases ih =>
    rw [List.flatMap_cons, List.count_append, ih, phase, List.count_cons_self,
      List.count_replicate, if_neg (by decide), List.length_cons, Nat.add_comm]

/-- A pause of some drains is one of a drain among them, after the drains before it. -/
theorem exists_phase_of_split {phases : List Nat} {before after : List Call}
    (h : phases.flatMap phase = before ++ .pause 1 :: after) :
    ∃ earlier polls, before = List.flatMap phase earlier ++ phase polls := by
  induction phases generalizing before with
  | nil => simp at h
  | cons n phases ih =>
    cases before with
    | nil => simp [phase] at h
    | cons call before =>
      rw [List.flatMap_cons, phase, List.cons_append, List.cons_append] at h
      obtain ⟨rfl, hrest⟩ := List.cons.inj h
      rcases List.append_eq_append_iff.mp hrest with ⟨more, rfl, hmore⟩ | ⟨more, hall, -⟩
      · obtain ⟨earlier, polls, rfl⟩ := ih hmore
        exact ⟨n :: earlier, polls, by simp [phase]⟩
      · obtain ⟨-, hbefore, -⟩ := List.append_eq_replicate_iff.mp hall.symm
        exact ⟨[], before.length, congrArg _ hbefore⟩

namespace Gated

open Event

variable {K C : Type} {g g₁ g₂ : Gated K C} {calls calls' : List Call}

/-- Whether a gate goes on to another state by these calls of its strategy, of which the trace
tells. -/
structure Makes (calls : List Call) (g g' : Gated K C) : Prop where
  /-- The strategy is what the calls make of it. -/
  strategy : g'.strategy = g.strategy.performAll calls
  /-- The trace tells of these calls. -/
  events : ∃ events, g'.events = g.events ++ events ∧ Event.calls events = calls ∧
    Tell events g.strategy

theorem Makes.refl (g : Gated K C) : Makes [] g g :=
  ⟨rfl, [], (List.append_nil _).symm, rfl, trivial⟩

theorem Makes.trans (h : Makes calls g g₁) (h' : Makes calls' g₁ g₂) :
    Makes (calls ++ calls') g g₂ := by
  obtain ⟨hstrategy, events, hevents, rfl, htell⟩ := h
  obtain ⟨hstrategy', events', hevents', rfl, htell'⟩ := h'
  refine ⟨?_, events ++ events', ?_, calls_append .., tell_append htell (hstrategy ▸ htell')⟩
  · rw [hstrategy', hstrategy, performAll_append]
  · rw [hevents', hevents, List.append_assoc]

/-- What leaves the strategy alone, and notes no call of it. -/
theorem makes_nil {events : List (Event K)} (hstrategy : g₁.strategy = g.strategy)
    (hevents : g₁.events = g.events ++ events) (huntold : ∀ e ∈ events, e.told? = none) :
    Makes [] g g₁ :=
  ⟨hstrategy, events, hevents, tell_of_untold huntold⟩

theorem makes_record {e : Event K} (he : e.told? = none) (g : Gated K C) :
    Makes [] g (g.record e) :=
  makes_nil rfl rfl fun _ h => List.mem_singleton.mp h ▸ he

theorem makes_restart (g : Gated K C) : Makes [.reset] g g.restart :=
  ⟨rfl, _, rfl, rfl, fun _ _ h => by cases h; rfl, trivial⟩

theorem makes_pause (did : List (Answer K)) (g : Gated K C) : Makes [.pause 1] g (g.pause did) :=
  ⟨rfl, _, rfl, rfl, fun _ _ h => by cases h; rfl, trivial⟩

theorem makes_reportDrain (v : Version) (count : Nat) (g : Gated K C) :
    Makes [] g (g.reportDrain v count) := by
  unfold reportDrain
  split
  · exact makes_record rfl g
  · exact .refl g

/-- What happens at a poll calls the strategy for one pause, or for none if it breaks off. -/
def PausesOnce (poll : Poll K C) : Prop :=
  ∀ g, Makes (if (poll g).1.isOk then [.pause 1] else []) g (poll g).2

variable {polls rest : List (Poll K C)} {v : Version} {count : Nat} {g' : Gated K C}

/-- A wait pauses so often as it polls in vain, whether it ends or breaks off. -/
theorem makes_awaitEmpty (hpolls : ∀ poll ∈ polls, PausesOnce poll) (v : Version) (count : Nat)
    (g : Gated K C) : ∃ n, Makes (List.replicate n (.pause 1)) g (g.awaitEmpty v polls count).2 ∧
      ∀ rest, (g.awaitEmpty v polls count).1 = .ok rest → polls.length = n + rest.length := by
  fun_induction awaitEmpty v polls count g with
  | case1 polls count g hv =>
    refine ⟨0, makes_reportDrain v count g, fun rest hrest => ?_⟩
    rw [Except.ok.inj hrest, Nat.zero_add]
  | case2 count g hv => exact ⟨0, makes_record rfl g, fun _ hstuck => by cases hstuck⟩
  | case3 count g hv poll rest fault g₁ hpoll =>
    have hpause := hpolls poll List.mem_cons_self g
    rw [hpoll] at hpause
    exact ⟨0, hpause, fun _ hbroken => by cases hbroken⟩
  | case4 count g hv poll rest g₁ hpoll ih =>
    have hpause := hpolls poll List.mem_cons_self g
    rw [hpoll] at hpause
    obtain ⟨n, hmakes, hlength⟩ := ih fun poll hp => hpolls poll (List.mem_cons_of_mem _ hp)
    refine ⟨n + 1, hpause.trans hmakes, fun rest' hrest => ?_⟩
    rw [List.length_cons, hlength rest' hrest]
    omega

/-- A wait that ends pauses once for each poll that it uses up. -/
theorem makes_of_awaitEmpty {used : List (Poll K C)}
    (hpolls : ∀ poll ∈ used ++ rest, PausesOnce poll)
    (h : g.awaitEmpty v (used ++ rest) count = (.ok rest, g')) :
    Makes (List.replicate used.length (.pause 1)) g g' := by
  obtain ⟨n, hmakes, hlength⟩ := makes_awaitEmpty hpolls v count g
  rw [h] at hmakes hlength
  have hused := hlength rest rfl
  rw [List.length_append, Nat.add_right_cancel_iff] at hused
  rwa [hused]

theorem makes_firstWait (g : Gated K C) : Makes [.reset] g g.firstWait :=
  (makes_record rfl g).trans (makes_restart _)

theorem makes_switch (v : Version) (g : Gated K C) : Makes [] g (g.switch v) :=
  makes_nil rfl (List.append_nil _).symm nofun

theorem makes_secondWait (v : Version) (g : Gated K C) : Makes [.reset] g (g.secondWait v) :=
  (makes_switch v g).trans (makes_restart _)

/-- What a toggle that returns calls: each of its two waits begins after a restart, and pauses once
for each poll that it uses up. -/
inductive DrainsTwice (polls : List (Poll K C)) (g g' : Gated K C) : Prop
  /-- The polls are used up by the first wait and by the second one, or left over. -/
  | intro {first second rest : List (Poll K C)} {g₁ : Gated K C}
      (split : polls = first ++ (second ++ rest))
      (restarted : Makes [.reset] g g.firstWait)
      (emptied : g.firstWait.awaitEmpty g.gate.indicator.current.other polls 0 =
        (.ok (second ++ rest), g₁))
      (paused : Makes (List.replicate first.length (.pause 1)) g.firstWait g₁)
      (restarted' : Makes [.reset] g₁ (g₁.secondWait g.gate.indicator.current.other))
      (drained : (g₁.secondWait g.gate.indicator.current.other).awaitEmpty
        g.gate.indicator.current (second ++ rest) 0 = (.ok rest, g'))
      (paused' : Makes (List.replicate second.length (.pause 1))
        (g₁.secondWait g.gate.indicator.current.other) g') : DrainsTwice polls g g'

theorem drainsTwice_of_toggle (hpolls : ∀ poll ∈ polls, PausesOnce poll)
    (h : g.toggle polls = (.ok (), g')) : DrainsTwice polls g g' := by
  have htoggled := g.toggled_toggle polls
  rw [h] at htoggled
  cases htoggled with
  | @both rest g₁ rest' _ emptied drained =>
    obtain ⟨first, rfl, -⟩ := exists_used_of_awaitEmpty emptied
    obtain ⟨second, rfl, -⟩ := exists_used_of_awaitEmpty drained
    have hrest : ∀ poll ∈ second ++ rest', PausesOnce poll :=
      fun poll hp => hpolls poll (List.mem_append_right _ hp)
    exact .intro rfl (makes_firstWait g) emptied (makes_of_awaitEmpty hpolls emptied)
      (makes_secondWait _ g₁) drained (makes_of_awaitEmpty hrest drained)

/-- A toggle that returns has two drains. -/
theorem DrainsTwice.makes (h : DrainsTwice polls g g') :
    ∃ first second, Makes (phase first ++ phase second) g g' := by
  obtain ⟨-, restarted, -, paused, restarted', -, paused'⟩ := h
  exact ⟨_, _, (restarted.trans paused).trans (restarted'.trans paused')⟩

/-- A toggle calls the strategy for its drains only, whether it returns or breaks off. -/
theorem makes_toggle (hpolls : ∀ poll ∈ polls, PausesOnce poll) (g : Gated K C) :
    ∃ phases : List Nat, Makes (phases.flatMap phase) g (g.toggle polls).2 := by
  have htoggled := g.toggled_toggle polls
  obtain ⟨n, hfirst, -⟩ := makes_awaitEmpty hpolls g.gate.indicator.current.other 0 g.firstWait
  generalize hresult : (g.toggle polls).1 = outcome, (g.toggle polls).2 = g' at htoggled ⊢
  cases htoggled with
  | first broken =>
    rw [broken] at hfirst
    refine ⟨[n], ?_⟩
    simpa [phase] using (makes_firstWait g).trans hfirst
  | @second rest g₁ fault _ emptied broken =>
    rw [emptied] at hfirst
    obtain ⟨first, rfl, -⟩ := exists_used_of_awaitEmpty emptied
    have hrest : ∀ poll ∈ rest, PausesOnce poll :=
      fun poll hp => hpolls poll (List.mem_append_right _ hp)
    obtain ⟨m, hsecond, -⟩ := makes_awaitEmpty hrest g.gate.indicator.current 0
      (g₁.secondWait g.gate.indicator.current.other)
    rw [broken] at hsecond
    refine ⟨[n, m], ?_⟩
    have hmakes := ((makes_firstWait g).trans hfirst).trans ((makes_secondWait _ g₁).trans hsecond)
    simpa [phase] using hmakes
  | both emptied drained =>
    obtain ⟨first, second, hmakes⟩ :=
      (drainsTwice_of_toggle hpolls (Toggled.both emptied drained).eq).makes
    refine ⟨[first, second], ?_⟩
    simpa using hmakes

end Gated

end LeftRight
