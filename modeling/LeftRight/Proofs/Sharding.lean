import LeftRight.Proofs.OtherSlots
import LeftRight.Proofs.OtherVisitors

/-!
# The number of slots does not matter

Two sets that are built with different numbers of slots and with different assigners, and two gates
whose visitors are spread differently, go through the same session in the same way, as long as their
counters can count the readers. Whatever is asked is answered the same, whatever breaks off does so
in both, each wait takes as many polls, and between any two steps and in any pause of a write both
hold the same. After a write has broken off the session goes on, and so it does if readers for whom
the write waited are still inside.
-/

namespace LeftRight

open Gated

namespace TwinSet

variable {S K : Type} {t : Terms} {g₁ g₂ : TwinSet S K}

/-- Two sets that hold the same, whichever slots their readers are on. -/
structure SameButSlots (g₁ g₂ : TwinSet S K) : Prop where
  /-- Both copies are the same. -/
  copies : g₁.content.copies = g₂.content.copies
  /-- New readers look at the same copy. -/
  selector : g₁.gate.selector = g₂.gate.selector
  /-- New readers arrive under the same version. -/
  current : g₁.gate.indicator.current = g₂.gate.indicator.current
  /-- As many readers are counted under either version. -/
  readers : ∀ v, g₁.gate.indicator.readers v = g₂.gate.indicator.readers v
  /-- The same threads are inside, under the same versions and looking at the same copies. -/
  inside : g₁.content.inside.map Reader.unslotted = g₂.content.inside.map Reader.unslotted
  /-- The writers wait alike. -/
  strategy : g₁.strategy = g₂.strategy

theorem Alike.sameButSlots (h : Alike t g₁ g₂) : g₁.SameButSlots g₂ where
  copies := h.content.copies
  selector := h.selector
  current := h.current
  readers v := by rw [h.serves₁.readers_eq, h.serves₂.readers_eq, h.population_eq]
  inside := h.content.readers
  strategy := h.strategy

/-- A strategy takes nothing over from a configuration but how long it sleeps. -/
theorem configure_congr {config₁ config₂ : Config} (h : config₁.drainSleep = config₂.drainSleep)
    (strategy : Strategy) : strategy.configure config₁ = strategy.configure config₂ := by
  cases strategy with
  | backoff b =>
    rw [Strategy.configure, Strategy.configure, Backoff.configure, Backoff.configure, h]
  | yielding => rfl

theorem serves_create {detected : Option Parallelism} {config : Config} {assigner : Assigner}
    {strategy : Strategy} {copies : Copies S} {g : TwinSet S K}
    (h : create detected config assigner strategy copies = .ok g) : Serves g := by
  obtain ⟨-, -, -, -, hcontent, -⟩ := create_eq_ok h
  have hinside : Gated.inside g = [] := by
    rw [Gated.inside, hcontent]
    rfl
  exact ⟨accounted_create h, roomy_of_deserted hinside⟩

/-- Two new sets of the same copies, with the same waiting times. -/
theorem alike_create {detected₁ detected₂ : Option Parallelism} {config₁ config₂ : Config}
    {assigner₁ assigner₂ : Assigner} {strategy : Strategy} {copies : Copies S}
    (hcreate₁ : create detected₁ config₁ assigner₁ strategy copies = .ok g₁)
    (hcreate₂ : create detected₂ config₂ assigner₂ strategy copies = .ok g₂)
    (hdrainSleep : config₁.drainSleep = config₂.drainSleep)
    (hslowDrain : config₁.slowDrain = config₂.slowDrain)
    (hrange₁ : assigner₁.InRange g₁.gate.indicator.size)
    (hrange₂ : assigner₂.InRange g₂.gate.indicator.size) (may : Fault → Prop) :
    Alike ⟨may, g₁.gate.indicator.size, g₂.gate.indicator.size⟩ g₁ g₂ := by
  have hstrategy := configure_congr hdrainSleep strategy
  obtain ⟨hselector₁, hcurrent₁, hslow₁, hstrategy₁, hcontent₁, hevents₁⟩ := create_eq_ok hcreate₁
  obtain ⟨hselector₂, hcurrent₂, hslow₂, hstrategy₂, hcontent₂, hevents₂⟩ := create_eq_ok hcreate₂
  have hreaders : g₁.content.inside.map Reader.unslotted =
      g₂.content.inside.map Reader.unslotted := by rw [hcontent₁, hcontent₂]
  refine {
    selector := hselector₁.trans hselector₂.symm
    current := hcurrent₁.trans hcurrent₂.symm
    slowDrain := hslow₁.trans (hslowDrain.trans hslow₂.symm)
    strategy := hstrategy₁.trans (hstrategy.trans hstrategy₂.symm)
    versions := versions_of_readers hreaders
    content := ⟨by rw [hcontent₁, hcontent₂], hreaders, by rwa [hcontent₁], by rwa [hcontent₂]⟩
    size₁ := rfl
    size₂ := rfl
    serves₁ := serves_create hcreate₁
    serves₂ := serves_create hcreate₂
    events := ?_ }
  rw [hevents₁, hevents₂, hstrategy]
  exact .cons (.configured hdrainSleep hslowDrain _) (.cons (.created _ _) .nil)

/-- Both sets are taken apart into the same, or neither is. -/
theorem alike_takeApart (h : Alike t g₁ g₂) {answer₁ answer₂ : Answer K}
    (hanswer : answer₁ = answer₂) (hwhole : ∀ fault, answer₁ ≠ .fault fault) :
    (takeApart answer₁ g₁).Alike t (takeApart answer₂ g₂) ∧
      g₁.content.inside.isEmpty = g₂.content.inside.isEmpty := by
  have hinside := congrArg List.isEmpty h.content.readers
  rw [List.isEmpty_map, List.isEmpty_map] at hinside
  refine ⟨?_, hinside⟩
  unfold takeApart
  rw [hinside, ← hanswer]
  split
  · exact .same hwhole
  · exact .same nofun

end TwinSet

namespace SetSession

open TwinSet

variable {S K : Type} {t : Terms} {s s₁ s₂ : SetSession S K}

/-- Two sessions with sets that differ in the slots of their readers only. -/
structure Alike (t : Terms) (s₁ s₂ : SetSession S K) : Prop where
  set : TwinSet.Alike t s₁.set s₂.set
  mayStay : s₁.mayStay = s₂.mayStay
  consumed : s₁.consumed = s₂.consumed

/-- Sessions that are alike stay so when their traces are taken. -/
theorem Alike.heard (h : s₁.Alike t s₂) : s₁.heard.Alike t s₂.heard :=
  ⟨{ h.set with
    serves₁ := h.set.serves₁.congr rfl rfl
    serves₂ := h.set.serves₂.congr rfl rfl
    events := .nil }, h.mayStay, h.consumed⟩

variable [OrderedSet S K]

/-- Whether there is room for all who enter in a step, unless the set has been taken apart. -/
def FitsStep (step : SetStep K) (s : SetSession S K) : Prop :=
  s.consumed = false → match step with
  | .ask request => RoomFor s.mayStay request s.set
  | .write change script => (company s.mayStay).FitsDuring (RoomFor s.mayStay) script fun polls =>
    TwinSet.write change polls s.set
  | _ => True

/-- Whether there is room for all who enter in a session. -/
def Fits (steps : List (SetStep K)) (s : SetSession S K) : Prop :=
  ∀ i step, steps[i]? = some step → FitsStep step (s.run (steps.take i)).2

/-- Whether the faults may be told that come of the copies in a step. -/
def Tolerated (t : Terms) (step : SetStep K) (s : SetSession S K) : Prop :=
  match step with
  | .write change _ =>
    (∀ fault (c c' : S), OrderedSet.apply change c = (.error fault, c') → t.may fault) ∧
    ∀ c c' : S, OrderedSet.apply change s.set.hiddenCopy = (.ok true, c) →
      OrderedSet.apply change s.set.visibleCopy = (.ok false, c') → t.may .diverged
  | _ => True

/-- What a step comes to if these use the set besides its writer. -/
def performWith (crew : Bool → Company (SetRequest K) K (Twin S)) (step : SetStep K)
    (s : SetSession S K) : Answer K × SetSession S K :=
  match step with
  | .write change script =>
    if s.consumed then (.consumed, s) else
    let (outcome, set) := TwinSet.write change ((crew s.mayStay).polls script) s.set
    (.ofOutcome .flag outcome, { s with set })
  | step => s.perform step

/-- Several steps one after another, if these use the set besides its writer. -/
def runWith (crew : Bool → Company (SetRequest K) K (Twin S)) (steps : List (SetStep K))
    (s : SetSession S K) : List (Answer K × List (Event K)) × SetSession S K :=
  transcript (performWith crew)
    (fun s => let (events, set) := s.set.takeEvents; (events, { s with set })) steps s

/-- Whether there is room for all who enter in a step, unless the set has been taken apart. -/
def FitsStepWith (crew : Bool → Company (SetRequest K) K (Twin S)) (step : SetStep K)
    (s : SetSession S K) : Prop :=
  match step with
  | .write change script => s.consumed = false →
    (crew s.mayStay).FitsDuring (RoomFor s.mayStay) script fun polls =>
      TwinSet.write change polls s.set
  | step => FitsStep step s

/-- Whether there is room for all who enter in a session, if these use the set besides its
writer. -/
def FitsWith (crew : Bool → Company (SetRequest K) K (Twin S)) (steps : List (SetStep K))
    (s : SetSession S K) : Prop :=
  ∀ i step, steps[i]? = some step → FitsStepWith crew step (s.runWith crew (steps.take i)).2

theorem performWith_company (step : SetStep K) (s : SetSession S K) :
    s.performWith company step = s.perform step := by cases step <;> rfl

theorem runWith_company (steps : List (SetStep K)) (s : SetSession S K) :
    s.runWith company steps = s.run steps := by
  have hperform : performWith (S := S) (K := K) company = SetSession.perform :=
    funext fun step => funext (performWith_company step)
  rw [runWith, hperform]
  rfl

theorem fitsStepWith_company (step : SetStep K) (s : SetSession S K) :
    FitsStepWith company step s ↔ FitsStep step s := by cases step <;> exact Iff.rfl

theorem fitsWith_company {steps : List (SetStep K)} :
    FitsWith company steps s ↔ Fits steps s := by
  simp only [FitsWith, Fits, runWith_company, fitsStepWith_company]

variable {crew : Bool → Company (SetRequest K) K (Twin S)} {own : Fault → Prop}

/-- A step of both sessions is answered alike and leaves them alike. -/
theorem Alike.performWith (hcrew : ∀ mayStay, Accompanies t own mayStay (crew mayStay))
    (hraised : ∀ message, t.may (.raised message)) (hown : ∀ fault, own fault → t.may fault)
    (h : s₁.Alike t s₂) {step : SetStep K} (hfits : FitsStepWith crew step s₁)
    (htolerated : Tolerated t step s₁) :
    (s₁.performWith crew step).1.Alike t (s₂.performWith crew step).1 ∧
      (s₁.performWith crew step).2.Alike t (s₂.performWith crew step).2 := by
  have hsets := h.set
  obtain ⟨set₁, mayStay, consumed⟩ := s₁
  obtain ⟨set₂, mayStay₂, consumed₂⟩ := s₂
  obtain ⟨rfl, rfl⟩ : mayStay = mayStay₂ ∧ consumed = consumed₂ := ⟨h.mayStay, h.consumed⟩
  cases consumed with
  | true => cases step <;> exact ⟨.same (by simp [SetSession.performWith, SetSession.perform]), h⟩
  | false =>
    cases step with
    | ask request =>
      obtain ⟨hanswer, hnext⟩ := TwinSet.Alike.perform hraised hsets (hfits rfl)
      exact ⟨hanswer, hnext, rfl, rfl⟩
    | write change script =>
      obtain ⟨outcome, u₁, u₂, hwrite₁, hwrite₂, halike, hreason⟩ :=
        TwinSet.Alike.write (hcrew mayStay) hsets (hcrew mayStay).closing
          (hcrew mayStay).undisturbing_last (hfits rfl)
      have hmay : ∀ fault, outcome = .error fault → t.may fault := by
        intro fault hfault
        cases hreason fault hfault with
        | pause reason =>
          obtain ⟨_, _, message, _, rfl⟩ | hreason := reason
          · exact hraised message
          · exact hown fault hreason
        | copy applied => exact htolerated.1 _ _ _ applied
        | diverged accepted refused => exact htolerated.2 _ _ accepted refused
      simp only [SetSession.performWith, Company.polls_eq, hwrite₁, hwrite₂]
      exact ⟨Answer.alike_ofOutcome (by simp) hmay, halike, rfl, rfl⟩
    | intoCopies =>
      have hanswer : Answer.copies (OrderedSet.toList set₁.content.copies.left)
          (OrderedSet.toList set₁.content.copies.right) =
          .copies (OrderedSet.toList set₂.content.copies.left)
            (OrderedSet.toList set₂.content.copies.right) := by rw [hsets.content.copies]
      obtain ⟨htold, hinside⟩ := alike_takeApart hsets hanswer (by simp)
      exact ⟨htold, hsets, rfl, hinside⟩
    | intoInner =>
      have hanswer : Answer.keys (OrderedSet.toList (visibleCopy set₁)) =
          .keys (OrderedSet.toList (visibleCopy set₂)) := by
        rw [visibleCopy, visibleCopy, hsets.content.copies, hsets.selector]
      obtain ⟨htold, hinside⟩ := alike_takeApart hsets hanswer (by simp)
      exact ⟨htold, hsets, rfl, hinside⟩

theorem Alike.perform (hraised : ∀ message, t.may (.raised message)) (h : s₁.Alike t s₂)
    {step : SetStep K} (hfits : FitsStep step s₁) (htolerated : Tolerated t step s₁) :
    (s₁.perform step).1.Alike t (s₂.perform step).1 ∧
      (s₁.perform step).2.Alike t (s₂.perform step).2 := by
  have hstep := h.performWith (accompanies_company hraised) hraised (fun _ => False.elim)
    ((fitsStepWith_company step s₁).mpr hfits) htolerated
  rwa [performWith_company, performWith_company] at hstep

/-- Sessions of the same steps are alike, from sets that are. -/
theorem Alike.runWith (hcrew : ∀ mayStay, Accompanies t own mayStay (crew mayStay))
    (hraised : ∀ message, t.may (.raised message)) (hown : ∀ fault, own fault → t.may fault)
    (h : s₁.Alike t s₂) {steps : List (SetStep K)} (hfits : FitsWith crew steps s₁)
    (htolerated : ∀ i step, steps[i]? = some step →
      Tolerated t step (s₁.runWith crew (steps.take i)).2) :
    TranscriptsAlike t (s₁.runWith crew steps).1 (s₂.runWith crew steps).1 ∧
      (s₁.runWith crew steps).2.Alike t (s₂.runWith crew steps).2 := by
  refine transcripts_alike (SetSession.performWith crew) (SetSession.performWith crew) _
    (fun step s => FitsStepWith crew step s ∧ Tolerated t step s) (Alike t) ?_ h
    fun i step hstep => ⟨hfits i step hstep, htolerated i step hstep⟩
  intro step s₁ s₂ h ⟨hfits, htolerated⟩
  obtain ⟨hanswer, hnext⟩ := h.performWith hcrew hraised hown hfits htolerated
  exact ⟨hanswer, hnext.set.events, hnext.heard⟩

/-- Two sessions of the same steps that go the same way, whichever slots their readers are on. -/
structure GoAlike (crew : Bool → Company (SetRequest K) K (Twin S)) (steps : List (SetStep K))
    (s₁ s₂ : SetSession S K) : Prop where
  /-- Each step is answered the same and causes the same events, apart from slots. -/
  told : TranscriptsAlike ⟨fun _ => True, s₁.set.gate.indicator.size, s₂.set.gate.indicator.size⟩
    (s₁.runWith crew steps).1 (s₂.runWith crew steps).1
  /-- Between any two steps both sets hold the same, or have been taken apart. -/
  between : ∀ i, (s₁.runWith crew (steps.take i)).2.set.SameButSlots
      (s₂.runWith crew (steps.take i)).2.set ∧
    (s₁.runWith crew (steps.take i)).2.consumed = (s₂.runWith crew (steps.take i)).2.consumed
  /-- In any pause of a write both sets hold the same: if the write broke off there, it would in
  both. -/
  during : ∀ i change script, steps[i]? = some (.write change script) →
    (s₁.runWith crew (steps.take i)).2.consumed = false → ∀ n fault, ∃ outcome u₁ u₂,
      TwinSet.write change ((crew s₁.mayStay).turns (script.take n) ++ [halt fault])
        (s₁.runWith crew (steps.take i)).2.set = (outcome, u₁) ∧
      TwinSet.write change ((crew s₂.mayStay).turns (script.take n) ++ [halt fault])
        (s₂.runWith crew (steps.take i)).2.set = (outcome, u₂) ∧
      u₁.SameButSlots u₂

theorem mayStay_performWith (step : SetStep K) (s : SetSession S K) :
    (s.performWith crew step).2.mayStay = s.mayStay := by
  cases step <;> simp only [performWith, perform] <;> split <;> rfl

theorem mayStay_runWith (steps : List (SetStep K)) (s : SetSession S K) :
    (s.runWith crew steps).2.mayStay = s.mayStay := by
  induction steps generalizing s with
  | nil => rfl
  | cons step steps ih =>
    exact (ih (s.performWith crew step).2.heard).trans (mayStay_performWith step s)

/-- Whether there is room for all who enter in a step, looking at each pause once. -/
def HasRoom (crew : Bool → Company (SetRequest K) K (Twin S)) (mayStay : Bool) (step : SetStep K)
    (g : TwinSet S K) : Prop :=
  match step with
  | .ask request => RoomFor mayStay request g
  | .write change script => ∀ n (hn : n < script.length),
    (crew mayStay).FitsMoves (RoomFor mayStay) script[n]
      (TwinSet.write change ((crew mayStay).turns (script.take n) ++ [halt .stuck]) g).2
  | _ => True

instance (crew : Bool → Company (SetRequest K) K (Twin S)) (mayStay : Bool) (step : SetStep K)
    (g : TwinSet S K) : Decidable (HasRoom crew mayStay step g) :=
  match step with
  | .ask request => inferInstanceAs (Decidable (RoomFor mayStay request g))
  | .write _ script => inferInstanceAs (Decidable (∀ n (_ : n < script.length), _))
  | .intoCopies | .intoInner => .isTrue trivial

theorem fitsWith_of_hasRoom {steps : List (SetStep K)} (h : ∀ i (hi : i < steps.length),
    HasRoom crew s.mayStay steps[i] (s.runWith crew (steps.take i)).2.set) :
    FitsWith crew steps s := by
  intro i step hstep
  obtain ⟨hi, rfl⟩ := List.getElem?_eq_some_iff.mp hstep
  have hroom := h i hi
  have hmayStay : (s.runWith crew (steps.take i)).2.mayStay = s.mayStay := mayStay_runWith _ s
  rw [← hmayStay] at hroom
  cases hcase : steps[i] with
  | ask request =>
    rw [hcase] at hroom
    exact fun _ => hroom
  | write change script =>
    rw [hcase] at hroom
    exact fun _ => Company.fitsDuring_of_pauses hroom
  | intoCopies | intoInner => exact fun _ => trivial

theorem fits_of_hasRoom {steps : List (SetStep K)} (h : ∀ i (hi : i < steps.length),
    HasRoom company s.mayStay steps[i] (s.runWith company (steps.take i)).2.set) :
    Fits steps s := fitsWith_company.mp (fitsWith_of_hasRoom h)

/-- Sessions with sets that are alike at first go the same way. -/
theorem Alike.goAlike
    (hcrew : ∀ mayStay, Accompanies ⟨fun _ => True, s₁.set.gate.indicator.size,
      s₂.set.gate.indicator.size⟩ own mayStay (crew mayStay))
    (h : s₁.Alike ⟨fun _ => True, s₁.set.gate.indicator.size,
      s₂.set.gate.indicator.size⟩ s₂) {steps : List (SetStep K)} (hfits : FitsWith crew steps s₁) :
    GoAlike crew steps s₁ s₂ := by
  have htolerated {steps : List (SetStep K)} : ∀ i step, steps[i]? = some step →
      Tolerated ⟨fun _ => True, s₁.set.gate.indicator.size, s₂.set.gate.indicator.size⟩ step
        (s₁.runWith crew (steps.take i)).2 := by
    intro i step _
    cases step with
    | write => exact ⟨fun _ _ _ _ => trivial, fun _ _ _ _ => trivial⟩
    | _ => trivial
  have hrun {steps : List (SetStep K)} (hfits : FitsWith crew steps s₁) :=
    h.runWith hcrew (fun _ => trivial) (fun _ _ => trivial) hfits htolerated
  have hbetween (i : Nat) := (hrun (FitsThroughout.take hfits i)).2
  refine ⟨(hrun hfits).1, fun i => ⟨(hbetween i).set.sameButSlots, (hbetween i).consumed⟩, ?_⟩
  intro i change script hstep hwhole n fault
  have hroom := hfits i _ hstep hwhole
  rw [mayStay_runWith] at hroom
  obtain ⟨outcome, u₁, u₂, hwrite₁, hwrite₂, halike, -⟩ :=
    TwinSet.Alike.write (hcrew s₁.mayStay) (hbetween i).set (Company.closing_halt _ _ fault)
      Undisturbed.refl (Company.FitsDuring.take hroom n)
  rw [← h.mayStay]
  exact ⟨outcome, u₁, u₂, hwrite₁, hwrite₂, halike.sameButSlots⟩

end SetSession

open TwinSet

variable {S K : Type} [OrderedSet S K]

/-- However many slots two sets have, or two gates, and wherever their readers are counted, even if
that changes from call to call: both go through each session in the same way, if there is room in
the first one for all who enter. When a write breaks off, those who are inside may be let go or may
stay there. -/
theorem sharding_unobservable :
    (∀ (crew : Bool → Company (SetRequest K) K (Twin S)), crew = company ∨ crew = lingering →
      ∀ (detected₁ detected₂ : Option Parallelism) (config₁ config₂ : Config)
      (assigner₁ assigner₂ : Assigner) (strategy : Strategy) (copies : Copies S)
      (g₁ g₂ : TwinSet S K) (mayStay : Bool) (steps : List (SetStep K)),
      TwinSet.create detected₁ config₁ assigner₁ strategy copies = .ok g₁ →
      TwinSet.create detected₂ config₂ assigner₂ strategy copies = .ok g₂ →
      config₁.drainSleep = config₂.drainSleep → config₁.slowDrain = config₂.slowDrain →
      assigner₁.InRange g₁.gate.indicator.size → assigner₂.InRange g₂.gate.indicator.size →
      SetSession.FitsWith crew steps { set := g₁, mayStay } →
      SetSession.GoAlike crew steps { set := g₁, mayStay } { set := g₂, mayStay }) ∧
    ∀ (slots₁ slots₂ : Nat) (slowDrain : Option Duration) (gate₁ gate₂ : Gate)
      (strategy : Strategy) (spread₁ spread₂ : Nat → Nat) (steps : List Register.Step),
      Gate.create slots₁ slowDrain = .ok gate₁ → Gate.create slots₂ slowDrain = .ok gate₂ →
      (∀ n, spread₁ n < slots₁) → (∀ n, spread₂ n < slots₂) →
      Register.Fits (K := K) spread₁ steps { gate := gate₁, strategy, content := {} } →
      Register.GoAlike (K := K) spread₁ spread₂ steps
        { gate := gate₁, strategy, content := {} } { gate := gate₂, strategy, content := {} } := by
  refine ⟨?_, ?_⟩
  · intro crew hcrew _ _ _ _ _ _ _ _ g₁ g₂ mayStay steps hcreate₁ hcreate₂ hdrainSleep hslowDrain
      hrange₁ hrange₂ hfits
    have hsets := TwinSet.alike_create hcreate₁ hcreate₂ hdrainSleep hslowDrain hrange₁ hrange₂
      fun _ => True
    have hsessions : SetSession.Alike ⟨fun _ => True, g₁.gate.indicator.size,
        g₂.gate.indicator.size⟩ { set := g₁, mayStay } { set := g₂, mayStay } := ⟨hsets, rfl, rfl⟩
    rcases hcrew with rfl | rfl
    · exact hsessions.goAlike (accompanies_company fun _ => trivial) hfits
    · exact hsessions.goAlike (accompanies_lingering fun _ => trivial) hfits
  · intro slots₁ slots₂ slowDrain gate₁ gate₂ strategy spread₁ spread₂ steps hgate₁ hgate₂ hrange₁
      hrange₂ hfits
    obtain ⟨rfl, rfl, halike⟩ := Register.alike_create hgate₁ hgate₂ strategy fun _ => True
    exact Register.Alike.goAlike halike hrange₁ hrange₂ hfits

/-- A configuration of four slots, without a log of slow drains. -/
def wideConfig : Config :=
  { parallelism := Parallelism.ofWord? 2, slotsPerCore := 2, slowDrain := none }

/-- An assigner that gives every call the next slot, whichever thread calls. -/
def roving : Assigner := ⟨fun call _ slots => remainderSlot slots call⟩

/-- An empty set of numbers, of which the readers rove over four slots. -/
def wideSet : TwinSet (SortedList Nat) Nat where
  gate := {
    indicator := { slots := .replicate 4 {}, slots_ne_nil := List.cons_ne_nil _ _ }
    slowDrain := none }
  strategy := .yielding
  content := { copies := ⟨{}, {}⟩, assigner := roving }
  events := [.configured wideConfig .yielding, .created 4 2]

/-- Two readers are waited for, and one comes whom the second write waits for in vain. -/
def sharedSteps : List (SetStep Nat) := [
  .ask (.enter 1),
  .ask (.enter 2),
  .write (.add 5) [[.ask (.contains 5 3)], [.ask (.leave 1 none), .ask (.enter 4)],
    [.ask (.leave 2 none)]],
  .write (.add 6) [[.raise "gave up"]],
  .ask (.inspection false)]

theorem fits_sharedSteps : SetSession.FitsWith company sharedSteps SetSession.narrowSession :=
  SetSession.fitsWith_of_hasRoom (by decide +kernel)

/-- A write breaks off while two readers are inside. Both stay, and the next write waits for the one
in its first wait and for the other in its second. The reader for which the last write waits leaves
only after that write is stuck. -/
def tornSteps : List (SetStep Nat) := [
  .ask (.enter 1),
  .write (.add 5) [[.ask (.enter 2), .raise "gave up"]],
  .ask (.contains 5 3),
  .write (.add 6) [[.ask (.contains 6 3)], [.ask (.leave 1 none)], [.ask (.leave 2 none)]],
  .ask (.enter 4),
  .write (.add 7) [],
  .ask (.leave 4 none),
  .intoCopies]

theorem fits_tornSteps : SetSession.FitsWith lingering tornSteps SetSession.narrowSession :=
  SetSession.fitsWith_of_hasRoom (by decide +kernel)

/-- Two visitors are waited for, and one comes whom the second toggle waits for in vain. -/
def sharedVisits : List Register.Step := [
  .ask .arrive,
  .ask .arrive,
  .toggle [[.ask (.leave 0), .ask .arrive], [.ask (.leave 1)]],
  .ask .view,
  .toggle []]

/-- The gate of a narrow set, with a register. -/
def narrowGate : Gated Nat Register :=
  { gate := SetSession.narrowSession.set.gate, strategy := .yielding, content := {} }

theorem fits_sharedVisits : Register.Fits (fun _ => 0) sharedVisits narrowGate :=
  Register.fits_of_hasRoom (by decide +kernel)

/-- In the narrow set all share a slot, in the wide one and at the wide gate they do not; what they
are told is the same, down to the second write that breaks off and the second toggle that is stuck,
and also if those stay inside for whom a write has waited in vain. -/
theorem sharding_unobservable_roving :
    TwinSet.create none SetSession.narrowConfig .sequential .yielding ⟨{}, {}⟩ =
      .ok SetSession.narrowSession.set ∧
    TwinSet.create none wideConfig roving .yielding ⟨{}, {}⟩ = .ok wideSet ∧
    Assigner.InRange .sequential 1 ∧ roving.InRange 4 ∧
    SetSession.FitsWith company sharedSteps SetSession.narrowSession ∧
    (SetSession.narrowSession.runWith company sharedSteps).1.map Prod.fst =
      [.keys [], .keys [], .flag true, .fault (.raised "gave up"),
        .text (((⟨.left, .zero, 0, 0⟩ : View).inspection none 1).ofGate.text false)] ∧
    (SetSession.run (sharedSteps.take 2) { set := wideSet, mayStay := true }).2.set.places =
      [(1, .zero), (0, .zero)] ∧
    SetSession.GoAlike company sharedSteps SetSession.narrowSession
      { set := wideSet, mayStay := true } ∧
    SetSession.FitsWith lingering tornSteps SetSession.narrowSession ∧
    (SetSession.narrowSession.runWith lingering tornSteps).1.map Prod.fst =
      [.keys [], .fault (.raised "gave up"), .flag true, .flag true, .keys [6],
        .fault .stuck, .keys [6], .copies [6] [5, 6, 7]] ∧
    SetSession.GoAlike lingering tornSteps SetSession.narrowSession
      { set := wideSet, mayStay := true } ∧
    Register.Fits (fun _ => 0) sharedVisits narrowGate ∧
    (Register.session (fun _ => 0) sharedVisits narrowGate).1.map Prod.fst =
      [.version .zero, .version .zero, .done, .view ⟨.left, .one, 0, 1⟩, .fault .stuck] ∧
    Register.GoAlike (K := Nat) (fun _ => 0) (· % 4) sharedVisits narrowGate
      { gate := wideSet.gate, strategy := .yielding, content := {} } := by
  have hrange : Assigner.InRange .sequential 1 :=
    Assigner.inRange_remainder (by decide) fun _ thread => thread
  have hroving : roving.InRange 4 := Assigner.inRange_remainder (by decide) fun call _ => call
  obtain ⟨hsets, hgates⟩ := sharding_unobservable (S := SortedList Nat) (K := Nat)
  refine ⟨rfl, rfl, hrange, hroving, fits_sharedSteps, by decide +kernel, by decide +kernel, ?_,
    fits_tornSteps, by decide +kernel, ?_, fits_sharedVisits, by decide +kernel, ?_⟩
  · exact hsets company (.inl rfl) none none SetSession.narrowConfig wideConfig .sequential roving
      .yielding ⟨{}, {}⟩ _ wideSet true sharedSteps rfl rfl rfl rfl hrange hroving fits_sharedSteps
  · exact hsets lingering (.inr rfl) none none SetSession.narrowConfig wideConfig .sequential roving
      .yielding ⟨{}, {}⟩ _ wideSet true tornSteps rfl rfl rfl rfl hrange hroving fits_tornSteps
  · exact hgates 1 4 none _ wideSet.gate .yielding (fun _ => 0) (· % 4) sharedVisits rfl rfl
      (fun _ => Nat.zero_lt_one) (fun n => Nat.mod_lt n (by decide)) fits_sharedVisits

end LeftRight
