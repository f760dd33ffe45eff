import LeftRight.Proofs.Patience
import LeftRight.Proofs.Phases
import LeftRight.Proofs.Sharding
import LeftRight.Session.Gate

/-!
# Restarts of the backoff

The writer of a set, or of a gate, restarts its backoff at each drain, and nobody else calls it. So
a poll sleeps only from the twelfth of its drain on, whatever the drains before did and however they
ended, and a write that changes the set restarts the backoff twice.
-/

namespace LeftRight

open Strategy Event

section Companies

open Gated

variable {R K C : Type} {company : Company R K C}

/-- A pause calls the strategy at its end, if those who act in it do not call it. -/
theorem Company.pausesOnce_turn (hperform : ∀ request g, Makes [] g (company.perform request g).2)
    (hrelease : ∀ g, Makes [] g (company.release g).2) (moves : List (Move R))
    (did : List (Answer K)) : PausesOnce (company.turn moves did) := by
  intro g
  induction moves generalizing did g with
  | nil => exact makes_pause did g
  | cons move moves ih =>
    cases move with
    | ask request => exact (hperform request g).trans (ih _ _)
    | raise message => exact (hrelease g).trans (makes_record rfl _)

theorem Company.pausesOnce_lastTurn (hrelease : ∀ g, Makes [] g (company.release g).2) :
    PausesOnce company.lastTurn := by
  intro g
  have hreleased := hrelease g
  unfold lastTurn
  rcases hresult : company.release g with ⟨_ | ⟨thread, threads⟩, g₁⟩ <;> rw [hresult] at hreleased
  · exact hreleased.trans (makes_record rfl g₁)
  · exact hreleased.trans (makes_pause _ g₁)

/-- So does each pause of a script. -/
theorem Company.pausesOnce_polls (hperform : ∀ request g, Makes [] g (company.perform request g).2)
    (hrelease : ∀ g, Makes [] g (company.release g).2) (script : Script R) :
    ∀ poll ∈ company.polls script, PausesOnce poll := by
  intro poll hpoll
  rcases List.mem_append.mp hpoll with hpoll | hpoll
  · obtain ⟨moves, -, rfl⟩ := List.mem_map.mp hpoll
    exact pausesOnce_turn hperform hrelease moves []
  · rw [List.mem_singleton.mp hpoll]
    exact pausesOnce_lastTurn hrelease

end Companies

/-- A look at a copy is no call. -/
theorem Event.IsLook.told?_eq {K : Type} {e : Event K} (h : e.IsLook) : e.told? = none := by
  cases e with
  | configured | reset | waited => exact h.elim
  | _ => rfl

namespace TwinSet

open Gated

variable {S K : Type} {g g' : TwinSet S K}

theorem makes_enter (thread : Nat) (g : TwinSet S K) : Makes [] g (enter thread g).2 := by
  dsimp only [enter]
  cases g.content.assigner.slot g.content.assigned thread g.gate.indicator.size with
  | error fault => exact makes_nil rfl (List.append_nil _).symm nofun
  | ok slot =>
    have hslot {u : TwinSet S K} (hstrategy : u.strategy = g.strategy)
        (hevents : u.events = g.events ++ [.slot thread g.gate.indicator.size slot]) :
        Makes [] g u :=
      makes_nil hstrategy hevents fun e he => by rw [List.mem_singleton.mp he]; rfl
    dsimp only [Gated.record_gate]
    rcases g.gate.indicator.arrive slot with ⟨fault | version, indicator⟩ <;> exact hslot rfl rfl

theorem makes_leave (reader : Reader) (g : TwinSet S K) : Makes [] g (leave reader g).2 :=
  makes_nil rfl (List.append_nil _).symm nofun

/-- A look that notes no calls makes none. -/
theorem makes_read {α : Type} (thread : Nat) {look : Side → S → List (Event K) × Except Fault α}
    (hlook : ∀ side copy, ∀ e ∈ (look side copy).1, e.told? = none) (g : TwinSet S K) :
    Makes [] g (read thread look g).2 := by
  have henter := makes_enter thread g
  unfold read
  rcases hentered : enter thread g with ⟨outcome, g₁⟩
  rw [hentered] at henter
  cases outcome with
  | error fault => exact henter
  | ok reader =>
    have hnoted : Makes [] g₁ { g₁ with
        events := g₁.events ++ (look reader.side (g₁.content.copies.get reader.side)).1 } :=
      makes_nil rfl rfl (hlook _ _)
    have hleft := (henter.trans hnoted).trans (makes_leave reader _)
    dsimp only
    split <;> rename_i hleave <;> rw [hleave] at hleft <;> exact hleft

theorem makes_release (g : TwinSet S K) : Makes [] g (release g).2 := by
  change Makes [] g (leaveAll (g.content.inside.mergeSort fun a b => a.thread ≤ b.thread) g)
  generalize g.content.inside.mergeSort _ = readers
  induction readers generalizing g with
  | nil => exact .refl g
  | cons reader readers ih => exact (makes_leave reader g).trans (ih _)

theorem Acts.makes (h : g.Acts g') : Makes [] g g' := by
  cases h with
  | read thread look looks =>
    exact makes_read thread (fun side copy e he => (looks side copy e he).told?_eq) g
  | enter thread => exact makes_enter thread g
  | leave => exact makes_leave _ g
  | nothing => exact .refl g

variable [OrderedSet S K]

/-- No request calls the strategy. -/
theorem makes_perform (mayStay : Bool) (request : SetRequest K) (g : TwinSet S K) :
    Makes [] g (perform mayStay request g).2 := (acts_perform mayStay request g).makes

theorem pausesOnce_company (mayStay : Bool) (script : Script (SetRequest K)) :
    ∀ poll ∈ (company (S := S) mayStay).polls script, PausesOnce poll :=
  Company.pausesOnce_polls (makes_perform mayStay) makes_release script

theorem makes_mutate (side : Side) (change : Change K) (g : TwinSet S K) :
    Makes [] g (mutate side change g).2 :=
  makes_nil rfl rfl fun e he => by rw [List.mem_singleton.mp he]; rfl

variable {change : Change K} {polls : List (Poll K (Twin S))} {g₀ : TwinSet S K}

theorem Published.makes (h : Published change g g₀) : Makes [] g g₀ := by
  obtain ⟨g₁, hmutate, rfl⟩ := h
  have hchanged := makes_mutate g.gate.selector.other change g
  rw [hmutate] at hchanged
  exact hchanged.trans (makes_nil rfl (List.append_nil _).symm nofun)

/-- A write calls the strategy for its drains only, however it ends. -/
theorem makes_write (hpolls : ∀ poll ∈ polls, PausesOnce poll) (change : Change K)
    (g : TwinSet S K) :
    ∃ phases : List Nat, Makes (phases.flatMap phase) g (write change polls g).2 := by
  have hproceeds := proceeds_write change polls g
  generalize write change polls g = result at hproceeds ⊢
  cases hproceeds with
  | ineffective => exact ⟨[], makes_mutate ..⟩
  | @interrupted g₀ g₂ fault published broken =>
    obtain ⟨phases, hphases⟩ := makes_toggle hpolls g₀
    rw [broken] at hphases
    exact ⟨phases, published.makes.trans hphases⟩
  | @replayed g₀ g₂ published waited =>
    obtain ⟨phases, hphases⟩ := makes_toggle hpolls g₀
    rw [waited] at hphases
    refine ⟨phases, ?_⟩
    simpa using (published.makes.trans hphases).trans (makes_mutate g.gate.selector change g₂)

/-- What a write that changes the set calls: between its two changes, the two drains of a toggle. -/
inductive WritesOnce (change : Change K) (polls : List (Poll K (Twin S))) (g g' : TwinSet S K) :
    Prop
  /-- The copy that was changed first is published, and behind its toggle the other one is
  changed. -/
  | intro {g₀ g₂ : TwinSet S K} (published : Published change g g₀) (changed : Makes [] g g₀)
      (toggled : g₀.toggle polls = (.ok (), g₂)) (drained : DrainsTwice polls g₀ g₂)
      (changed' : Makes [] g₂ g') : WritesOnce change polls g g'

/-- A write that returns that it changed the set has restarted the strategy before each drain. -/
theorem writesOnce_of_write (hpolls : ∀ poll ∈ polls, PausesOnce poll)
    (h : write change polls g = (.ok true, g')) : WritesOnce change polls g g' := by
  have hproceeds := proceeds_write change polls g
  generalize hresult : write change polls g = result at hproceeds
  rw [h] at hresult
  cases hproceeds with
  | ineffective ineffective => exact absurd (congrArg Prod.fst hresult).symm ineffective
  | interrupted => cases (congrArg Prod.fst hresult)
  | @replayed g₀ g₂ published waited =>
    have hchanged := makes_mutate g.gate.selector change g₂
    rw [← (Prod.mk.inj hresult).2] at hchanged
    exact .intro published published.makes waited (drainsTwice_of_toggle hpolls waited) hchanged

/-- Such a write restarts the strategy twice. -/
theorem WritesOnce.makes (h : WritesOnce change polls g g') :
    ∃ first second, Makes (phase first ++ phase second) g g' := by
  obtain ⟨-, changed, -, drained, changed'⟩ := h
  obtain ⟨first, second, hmakes⟩ := drained.makes
  refine ⟨first, second, ?_⟩
  simpa using (changed.trans hmakes).trans changed'

/-- What can become of a set of which nobody but the writers calls the strategy, whether their
writes return or break off, and whoever is inside then. -/
inductive Goes (g : TwinSet S K) : TwinSet S K → Prop
  /-- Nothing has happened. -/
  | start : Goes g g
  /-- A write. At each of its polls the strategy pauses, or the poll breaks off. -/
  | write {g' : TwinSet S K} (goes : Goes g g') (change : Change K)
      {polls : List (Poll K (Twin S))} (pausesOnce : ∀ poll ∈ polls, PausesOnce poll) :
      Goes g (write change polls g').2
  /-- What others do. -/
  | others {g' g'' : TwinSet S K} (goes : Goes g g') (untold : Makes [] g' g'') : Goes g g''

/-- The strategy is called for the drains of the writes. -/
theorem Goes.makes (h : Goes g g') : ∃ phases : List Nat, Makes (phases.flatMap phase) g g' := by
  induction h with
  | start => exact ⟨[], .refl g⟩
  | write _ change pausesOnce ih =>
    obtain ⟨phases, hphases⟩ := ih
    obtain ⟨more, hmore⟩ := makes_write pausesOnce change _
    refine ⟨phases ++ more, ?_⟩
    rw [List.flatMap_append]
    exact hphases.trans hmore
  | others _ untold ih =>
    obtain ⟨phases, hphases⟩ := ih
    refine ⟨phases, ?_⟩
    simpa using hphases.trans untold

end TwinSet

namespace BareGate

open Gated

theorem makes_perform (request : GateRequest) (g : BareGate) :
    Makes [] g (company.perform request g).2 :=
  makes_nil rfl (List.append_nil _).symm nofun

theorem pausesOnce_company (script : Script GateRequest) :
    ∀ poll ∈ company.polls script, PausesOnce poll :=
  Company.pausesOnce_polls makes_perform (fun g => .refl g) script

end BareGate

/-! ## Sessions -/

section Sessions

open Gated

variable {σ T K C : Type}

/-- All that a session has noted: the events of its steps, and those that are not told yet. -/
def noted (told : List (Answer K × List (Event K))) (rest : List (Event K)) : List (Event K) :=
  told.flatMap Prod.snd ++ rest

/-- What was noted before does not matter for the calls. -/
theorem Gated.Makes.after {calls : List Call} {g g' : Gated K C} {events : List (Event K)}
    (h : Makes calls { g with events := [] } { g' with events }) :
    Makes calls g { g' with events := g.events ++ events } := by
  obtain ⟨hstrategy, events', hevents, hcalls, htell⟩ := h
  exact ⟨hstrategy, events', congrArg (g.events ++ ·) hevents, hcalls, htell⟩

/-- A session calls the strategy for the drains of its steps only. -/
theorem makes_transcript (gated : σ → Gated K C) {perform : T → σ → Answer K × σ}
    {takeEvents : σ → List (Event K) × σ}
    (htake : ∀ s, (takeEvents s).1 = (gated s).events ∧
      gated (takeEvents s).2 = { gated s with events := [] })
    (hperform : ∀ step s, ∃ phases : List Nat,
      Makes (phases.flatMap phase) (gated s) (gated (perform step s).2))
    (steps : List T) (s : σ) :
    ∃ phases : List Nat, Makes (phases.flatMap phase) (gated s)
      { gated (transcript perform takeEvents steps s).2 with
        events := noted (transcript perform takeEvents steps s).1
          (gated (transcript perform takeEvents steps s).2).events } := by
  induction steps generalizing s with
  | nil => exact ⟨[], .refl _⟩
  | cons step steps ih =>
    obtain ⟨phases, hstep⟩ := hperform step s
    obtain ⟨hevents, hnext⟩ := htake (perform step s).2
    obtain ⟨phases', hrest⟩ := ih (takeEvents (perform step s).2).2
    rw [hnext] at hrest
    refine ⟨phases ++ phases', ?_⟩
    have hall := hstep.trans hrest.after
    rw [List.flatMap_append]
    simpa [transcript, noted, hevents] using hall

end Sessions

/-- How a trace tells of a backoff that drains. -/
structure Drains {K : Type} (b : Backoff) (setup : List Call) (events : List (Event K)) : Prop where
  /-- It is set up, and then there is one drain after the other. -/
  calls : ∃ phases : List Nat, Event.calls events = setup ++ phases.flatMap phase
  /-- Each pause comes in one of these drains, after so many polls of it, and it sleeps if and only
  if it is a later one than the eleventh of its drain, and a sleep is set. -/
  sleeps : ∀ (before after : List (Event K)) (did : List (Answer K)) (s : Strategy)
    (view : Except Fault View), events = before ++ .waited did s view :: after →
    ∃ (earlier : List Nat) (polls : Nat) (b' : Backoff),
      Event.calls before = setup ++ earlier.flatMap phase ++ phase polls ∧
      (Strategy.backoff b).performAll (Event.calls before) = .backoff b' ∧
      s = .backoff b'.pause ∧
      b'.nap = if 11 < polls + 1 then lastSleep b.sleep setup else none

/-- After so many polls of a drain that all were in vain, a backoff has counted these and no others,
and sleeps for as long as it was set up to. -/
theorem nap_of_phase {b b' : Backoff} {setup : List Call} {earlier : List Nat} {polls : Nat}
    (h : b.ComesTo (setup ++ (earlier.flatMap phase ++ phase polls)) b') :
    b'.nap = if 11 < polls + 1 then lastSleep b.sleep setup else none := by
  have hreset : .reset ∈ setup ++ (earlier.flatMap phase ++ phase polls) := by simp [phase]
  have hstep : b'.step = min 11 polls := by
    rw [h.step, Backoff.stepAfter, if_pos hreset, ← List.append_assoc, pausesSinceReset_phase,
      Nat.zero_add]
  have hphases : earlier.flatMap phase ++ phase polls = (earlier ++ [polls]).flatMap phase := by
    simp
  have hsleep : b'.sleep = lastSleep b.sleep setup := by
    rw [h.sleep, hphases, lastSleep_phases]
  rw [b'.nap_eq, hstep, hsleep]
  exact ite_congr (propext (by omega)) (fun _ => rfl) fun _ => rfl

/-- A run that calls the backoff for drains only has such a trace. -/
theorem drains_of_calls {K : Type} {b : Backoff} {setup : List Call} {events : List (Event K)}
    {phases : List Nat} (hsetup : .pause 1 ∉ setup)
    (hcalls : Event.calls events = setup ++ phases.flatMap phase)
    (htell : Tell events (.backoff b)) : Drains b setup events := by
  refine ⟨⟨phases, hcalls⟩, ?_⟩
  rintro before after did s view rfl
  have hsplit : setup ++ phases.flatMap phase =
      Event.calls before ++ .pause 1 :: Event.calls after := by
    rw [← hcalls, ← List.singleton_append, calls_append, calls_append]
    rfl
  obtain ⟨earlier, polls, hbefore⟩ : ∃ (earlier : List Nat) (polls : Nat),
      Event.calls before = setup ++ (earlier.flatMap phase ++ phase polls) := by
    rcases List.append_eq_append_iff.mp hsplit with ⟨more, hmore, hphases⟩ | ⟨more, rfl, hmore⟩
    · obtain ⟨earlier, polls, rfl⟩ := exists_phase_of_split hphases
      exact ⟨earlier, polls, hmore⟩
    · -- The setup makes no pause, and the drains do not begin with one.
      cases more with
      | nil =>
        obtain ⟨earlier, polls, hnone⟩ : ∃ (earlier : List Nat) (polls : Nat),
            [] = earlier.flatMap phase ++ phase polls := exists_phase_of_split hmore.symm
        simp [phase] at hnone
      | cons call more =>
        obtain ⟨rfl, -⟩ := List.cons.inj hmore
        exact absurd (by simp) hsetup
  obtain ⟨b', hb', hcomes⟩ := Backoff.performAll_backoff b (Event.calls before)
  have htold : s = ((Strategy.backoff b).performAll (Event.calls before)).perform (.pause 1) :=
    htell.of_split rfl
  refine ⟨earlier, polls, b', by rw [hbefore, List.append_assoc], hb', ?_, ?_⟩
  · rw [htold, hb']
    rfl
  · exact nap_of_phase (hbefore ▸ hcomes)

open Gated

/-- What comes of a new set has such a trace, if its backoff is called for drains only: it is set up
with the configuration. -/
theorem TwinSet.drains_of_makes {S K : Type} {detected : Option Parallelism} {config : Config}
    {assigner : Assigner} {b : Backoff} {copies : Copies S} {g g' : TwinSet S K}
    (hcreate : TwinSet.create detected config assigner (.backoff b) copies = .ok g)
    {phases : List Nat} (h : Makes (phases.flatMap phase) g g') :
    Drains b [.configure config] g'.events := by
  obtain ⟨-, -, -, hstrategy, -, hevents⟩ := TwinSet.create_eq_ok hcreate
  obtain ⟨-, events, hnoted, hcalls, htell⟩ := h
  have hsetup : Event.calls g.events = [.configure config] := by rw [hevents]; rfl
  have htold : Tell g.events (.backoff b) := by
    rw [hevents]
    exact ⟨fun _ _ h => by cases h; rfl, nofun, trivial⟩
  have hall : Tell (g.events ++ events) (.backoff b) := by
    refine tell_append htold ?_
    rw [hsetup]
    change Tell events ((Strategy.backoff b).configure config)
    rw [← hstrategy]
    exact htell
  rw [hnoted]
  exact drains_of_calls (by simp) (by rw [calls_append, hsetup, hcalls]) hall

/-- So has a session with a set. -/
theorem SetSession.drains_run {S K : Type} [OrderedSet S K] {detected : Option Parallelism}
    {config : Config} {assigner : Assigner} {b : Backoff} {copies : Copies S} {g : TwinSet S K}
    (hcreate : TwinSet.create detected config assigner (.backoff b) copies = .ok g)
    (mayStay : Bool) (steps : List (SetStep K)) :
    Drains b [.configure config] (noted (SetSession.run steps { set := g, mayStay }).1
      (SetSession.run steps { set := g, mayStay }).2.set.events) := by
  have hperform (step : SetStep K) (s : SetSession S K) : ∃ phases : List Nat,
      Makes (phases.flatMap phase) s.set (s.perform step).2.set := by
    unfold SetSession.perform
    split
    · exact ⟨[], .refl _⟩
    · cases step with
      | ask request => exact ⟨[], TwinSet.makes_perform s.mayStay request s.set⟩
      | write change script =>
        exact TwinSet.makes_write (TwinSet.pausesOnce_company s.mayStay script) change s.set
      | intoCopies | intoInner => exact ⟨[], .refl _⟩
  let takeEvents (s : SetSession S K) : List (Event K) × SetSession S K :=
    (s.set.events, { s with set := s.set.takeEvents.2 })
  have htake (s : SetSession S K) : (takeEvents s).1 = s.set.events ∧
      (takeEvents s).2.set = { s.set with events := [] } := ⟨rfl, rfl⟩
  obtain ⟨phases, hphases⟩ :=
    makes_transcript SetSession.set htake hperform steps { set := g, mayStay }
  exact TwinSet.drains_of_makes hcreate hphases

/-- And so has a session with a gate, of which nothing was noted before. -/
theorem BareGate.drains_session {b : Backoff} {g : BareGate} (hstrategy : g.strategy = .backoff b)
    (hevents : g.events = []) (steps : List BareGate.Step) :
    Drains b [] (noted (g.session steps).1 (g.session steps).2.events) := by
  have hperform (step : BareGate.Step) (g : BareGate) : ∃ phases : List Nat,
      Makes (phases.flatMap phase) g (BareGate.perform step g).2 := by
    cases step with
    | ask request => exact ⟨[], BareGate.makes_perform request g⟩
    | toggle script => exact makes_toggle (BareGate.pausesOnce_company script) g
  obtain ⟨phases, -, events, hnoted, hcalls, htell⟩ : ∃ phases : List Nat,
      Makes (phases.flatMap phase) g { (g.session steps).2 with
        events := noted (g.session steps).1 (g.session steps).2.events } :=
    makes_transcript id (fun _ => ⟨rfl, rfl⟩) hperform steps g
  rw [hevents, List.nil_append] at hnoted
  rw [hstrategy] at htell
  dsimp only at hnoted
  rw [hnoted]
  exact drains_of_calls List.not_mem_nil hcalls htell

/-- After whatever calls a backoff has the step that counts the pauses since the last restart, up to
the eleventh, and the sleep that was set last; it sleeps if and only if it has come to the eleventh
step and a sleep is set. So in every session with a set or with a gate, and whatever others do at
the polls of writes that return or break off, the twelfth vain poll of a drain is the first one that
can sleep, and a write that changes the set restarts the backoff twice, once before each drain. -/
theorem backoff_counts_polls_of_drain :
    (∀ (b : Backoff) (calls : List Call), ∃ b',
      (Strategy.backoff b).performAll calls = .backoff b' ∧ b.ComesTo calls b' ∧
      b'.nap = if b'.step = 11 then b'.sleep else none) ∧
    (∀ (S K : Type) [OrderedSet S K] (detected : Option Parallelism) (config : Config)
      (assigner : Assigner) (b : Backoff) (copies : Copies S) (g : TwinSet S K) (mayStay : Bool)
      (steps : List (SetStep K)),
      TwinSet.create detected config assigner (.backoff b) copies = .ok g →
      Drains b [.configure config] (noted (SetSession.run steps { set := g, mayStay }).1
        (SetSession.run steps { set := g, mayStay }).2.set.events)) ∧
    (∀ (S K : Type) [OrderedSet S K] (detected : Option Parallelism) (config : Config)
      (assigner : Assigner) (b : Backoff) (copies : Copies S) (g g' : TwinSet S K),
      TwinSet.create detected config assigner (.backoff b) copies = .ok g → g.Goes g' →
      Drains b [.configure config] g'.events) ∧
    (∀ (b : Backoff) (g : BareGate) (steps : List BareGate.Step), g.strategy = .backoff b →
      g.events = [] → Drains b [] (noted (g.session steps).1 (g.session steps).2.events)) ∧
    ∀ (S K : Type) [OrderedSet S K] (change : Change K) (polls : List (Poll K (Twin S)))
      (g g' : TwinSet S K), (∀ poll ∈ polls, PausesOnce poll) →
      TwinSet.write change polls g = (.ok true, g') →
      TwinSet.WritesOnce change polls g g' ∧
      ∃ events, g'.events = g.events ++ events ∧ (Event.calls events).count .reset = 2 := by
  refine ⟨fun b calls => ?_, ?_, ?_, ?_, ?_⟩
  · obtain ⟨b', hb', hcomes⟩ := b.performAll_backoff calls
    exact ⟨b', hb', hcomes, b'.nap_eq⟩
  · intro S K _ detected config assigner b copies g mayStay steps hcreate
    exact SetSession.drains_run hcreate mayStay steps
  · intro S K _ detected config assigner b copies g g' hcreate hgoes
    obtain ⟨phases, hphases⟩ := hgoes.makes
    exact TwinSet.drains_of_makes hcreate hphases
  · intro b g steps hstrategy hevents
    exact BareGate.drains_session hstrategy hevents steps
  · intro S K _ change polls g g' hpolls hwrite
    have hwrites := TwinSet.writesOnce_of_write hpolls hwrite
    obtain ⟨first, second, -, events, hevents, hcalls, -⟩ := hwrites.makes
    refine ⟨hwrites, events, hevents, ?_⟩
    have hcount := count_reset_phases [first, second]
    rw [hcalls]
    simpa using hcount

theorem twentyMicroseconds_lt : 20000 < UInt64.size * 1000000000 := by decide

/-- The configuration of a single slot whose writer sleeps between two polls. -/
def sleepyConfig : Config :=
  { SetSession.narrowConfig with drainSleep := some ⟨20000, twentyMicroseconds_lt⟩ }

/-- A backoff that has come to its eleventh step, and does not sleep yet. -/
def spentBackoff : Backoff := ⟨11, none, Nat.le_refl 11⟩

/-- An empty set of numbers with that configuration and such a backoff. -/
def sleepySet : TwinSet (SortedList Nat) Nat :=
  { SetSession.narrowSession.set with
    strategy := .backoff (spentBackoff.configure sleepyConfig)
    events := [.configured sleepyConfig (.backoff (spentBackoff.configure sleepyConfig)),
      .created 1 1] }

/-- A wait that breaks off after its twelfth pause. -/
def brokenOff : Script (SetRequest Nat) := List.replicate 12 [] ++ [[.raise "gave up"]]

/-- A wait during whose thirteenth pause the reader leaves. -/
def outlasted : Script (SetRequest Nat) := List.replicate 12 [] ++ [[.ask (.leave 1 none)]]

/-- A write is given up when its second drain begins to sleep. The next one drains as long. -/
def tiringSteps : List (SetStep Nat) := [
  .ask (.enter 1),
  .write (.add 5) brokenOff,
  .ask (.enter 1),
  .write (.add 6) outlasted]

/-- The set when the second of these writes begins. -/
def beforeSecond : TwinSet (SortedList Nat) Nat :=
  (SetSession.run (tiringSteps.take 3) { set := sleepySet, mayStay := true }).2.set

/-- The set when its reader stays inside after the first write, and the second one waits for it. -/
def heldUp : TwinSet (SortedList Nat) Nat :=
  (TwinSet.write (.add 6) ((TwinSet.lingering true).polls outlasted)
    (TwinSet.write (.add 5) ((TwinSet.lingering true).polls brokenOff)
      (TwinSet.enter 1 sleepySet).2).2).2

theorem goes_heldUp : sleepySet.Goes heldUp := by
  have hpausesOnce (script : Script (SetRequest Nat)) :
      ∀ poll ∈ (TwinSet.lingering (S := SortedList Nat) true).polls script, PausesOnce poll :=
    Company.pausesOnce_polls (TwinSet.makes_perform true) (fun g => .refl g) script
  have hentered : sleepySet.Goes (TwinSet.enter 1 sleepySet).2 :=
    TwinSet.Goes.start.others (TwinSet.makes_enter 1 sleepySet)
  exact (hentered.write (.add 5) (hpausesOnce brokenOff)).write (.add 6) (hpausesOnce outlasted)

/-- A gate of one slot, whose writer has the same backoff. -/
def spentGate : BareGate where
  gate := SetSession.narrowSession.set.gate
  strategy := .backoff spentBackoff
  content := ()

/-- The backoff counts from one again in the second write, and sleeps at the twelfth and the
thirteenth poll, and so it does if the reader for which the first write waited is still inside then.
A gate of which nobody sets the sleep never sleeps. -/
theorem backoff_counts_polls_of_drain_tiring :
    TwinSet.create none sleepyConfig .sequential (.backoff spentBackoff) ⟨{}, {}⟩ = .ok sleepySet ∧
    (SetSession.run tiringSteps { set := sleepySet, mayStay := true }).1.map Prod.fst =
      [.keys [], .fault (.raised "gave up"), .keys [5], .flag true] ∧
    Event.calls (noted (SetSession.run tiringSteps { set := sleepySet, mayStay := true }).1 []) =
      .configure sleepyConfig :: [0, 12, 0, 13].flatMap phase ∧
    Drains spentBackoff [.configure sleepyConfig]
      (noted (SetSession.run tiringSteps { set := sleepySet, mayStay := true }).1
        (SetSession.run tiringSteps { set := sleepySet, mayStay := true }).2.set.events) ∧
    Event.calls heldUp.events = .configure sleepyConfig :: [0, 12, 13, 0].flatMap phase ∧
    Drains spentBackoff [.configure sleepyConfig] heldUp.events ∧
    Drains spentBackoff [] (noted (spentGate.session [.toggle []]).1
      (spentGate.session [.toggle []]).2.events) ∧
    TwinSet.WritesOnce (.add 6) ((TwinSet.company true).polls outlasted) beforeSecond
      (TwinSet.write (.add 6) ((TwinSet.company true).polls outlasted) beforeSecond).2 := by
  have hcreate : TwinSet.create none sleepyConfig .sequential (.backoff spentBackoff) ⟨{}, {}⟩ =
    .ok sleepySet := rfl
  have hwrite : (TwinSet.write (.add 6) ((TwinSet.company true).polls outlasted) beforeSecond).1 =
    .ok true := by decide +kernel
  obtain ⟨-, hset, hgoes, hgate, hwrites⟩ := backoff_counts_polls_of_drain
  refine ⟨hcreate, by decide +kernel, by decide +kernel, ?_, by decide +kernel, ?_, ?_, ?_⟩
  · exact hset (SortedList Nat) Nat none sleepyConfig .sequential spentBackoff ⟨{}, {}⟩ sleepySet
      true tiringSteps hcreate
  · exact hgoes (SortedList Nat) Nat none sleepyConfig .sequential spentBackoff ⟨{}, {}⟩ sleepySet
      heldUp hcreate goes_heldUp
  · exact hgate spentBackoff spentGate [.toggle []] rfl rfl
  · rcases hrun : TwinSet.write (.add 6) ((TwinSet.company true).polls outlasted) beforeSecond with
      ⟨outcome, u⟩
    rw [hrun] at hwrite
    obtain rfl : outcome = .ok true := hwrite
    exact (hwrites (SortedList Nat) Nat (.add 6) _ beforeSecond u
      (TwinSet.pausesOnce_company true outlasted) hrun).1

end LeftRight
