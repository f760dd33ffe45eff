import LeftRight.Proofs.Census
import LeftRight.Proofs.Pauses
import Mathlib.Data.List.Forall2

/-!
# Runs that are alike

Two gates can have readers of the same versions on quite different slots. What is done at the one
and at the other then comes to the same, apart from slots: both waits of a toggle see the same
readers at each poll, so they pause as often and end alike. What the readers do in the pauses is
left to their companies, as long as these match.
-/

namespace LeftRight

/-- The terms on which two runs are compared: the faults that may be told in them, and the numbers
of slots over which the readers of the one and of the other are spread. -/
structure Terms where
  /-- The faults that may be told. -/
  may : Fault → Prop
  /-- The number of slots in the first run. -/
  slots₁ : Nat
  /-- The number of slots in the second run. -/
  slots₂ : Nat

/-- The inspection text of a set of which the gate is shown like this. -/
def Inspection.ofGate (gate : Inspection) : Inspection :=
  .recordWith false "LeftRightSet" [("gate", gate)]

/-- Answers that are the same, except that an inspection text tells the number of slots. -/
inductive Answer.Alike {K : Type} (t : Terms) : Answer K → Answer K → Prop
  /-- The same answer, which tells no fault. -/
  | same {answer : Answer K} (whole : ∀ fault, answer ≠ .fault fault) : Alike t answer answer
  /-- The same fault, which may be told. -/
  | fault {fault : Fault} (may : t.may fault) : Alike t (.fault fault) (.fault fault)
  /-- The text of a gate. -/
  | gate (pretty : Bool) (slowDrain : Option Duration) (view : View) :
    Alike t (.text ((view.inspection slowDrain t.slots₁).text pretty))
      (.text ((view.inspection slowDrain t.slots₂).text pretty))
  /-- The text of a set. -/
  | set (pretty : Bool) (slowDrain : Option Duration) (view : View) :
    Alike t (.text ((Inspection.ofGate (view.inspection slowDrain t.slots₁)).text pretty))
      (.text ((Inspection.ofGate (view.inspection slowDrain t.slots₂)).text pretty))

/-- Whether an event tells nothing of slots, nor what others were answered. -/
def Event.IsPlain {K : Type} : Event K → Prop
  | .toggling .. | .slowDrain .. | .stuck | .changed .. | .looked .. | .measured .. => True
  | _ => False

/-- Events that are the same, except for slots. -/
inductive Event.Alike {K : Type} (t : Terms) : Event K → Event K → Prop
  /-- The same event. -/
  | same {e : Event K} (plain : e.IsPlain) : Alike t e e
  /-- The configurations have the same waiting times. -/
  | configured {config₁ config₂ : Config} (drainSleep : config₁.drainSleep = config₂.drainSleep)
    (slowDrain : config₁.slowDrain = config₂.slowDrain) (strategy : Strategy) :
    Alike t (.configured config₁ strategy) (.configured config₂ strategy)
  /-- The sets have so many slots. -/
  | created (slotsPerCore₁ slotsPerCore₂ : UInt64) :
    Alike t (.created t.slots₁ slotsPerCore₁) (.created t.slots₂ slotsPerCore₂)
  /-- The same thread is assigned to one slot or to another. -/
  | slot (thread : Nat) {slot₁ slot₂ : Nat} (inRange₁ : slot₁ < t.slots₁)
    (inRange₂ : slot₂ < t.slots₂) :
    Alike t (.slot thread t.slots₁ slot₁) (.slot thread t.slots₂ slot₂)
  /-- A drain begins, and the gates look the same. -/
  | reset (strategy : Strategy) (view : View) :
    Alike t (.reset strategy (.ok view)) (.reset strategy (.ok view))
  /-- The others are answered alike in a pause, and the gates look the same. -/
  | waited {did₁ did₂ : List (Answer K)} (did : List.Forall₂ (Answer.Alike t) did₁ did₂)
    (strategy : Strategy) (view : View) :
    Alike t (.waited did₁ strategy (.ok view)) (.waited did₂ strategy (.ok view))
  /-- The others are answered alike in a pause that breaks off, and the same are let go. -/
  | waitRaised {did₁ did₂ : List (Answer K)} (did : List.Forall₂ (Answer.Alike t) did₁ did₂)
    (released : List Nat) : Alike t (.waitRaised did₁ released) (.waitRaised did₂ released)

/-- Outcomes that are the same are answered alike, if their fault may be told. -/
theorem Answer.alike_ofOutcome {K α : Type} {t : Terms} {answer : α → Answer K}
    {outcome : Except Fault α} (hanswer : ∀ a fault, answer a ≠ .fault fault)
    (hmay : ∀ fault, outcome = .error fault → t.may fault) :
    (Answer.ofOutcome answer outcome).Alike t (.ofOutcome answer outcome) := by
  cases outcome with
  | error fault => exact .fault (hmay fault rfl)
  | ok a => exact .same (hanswer a)

namespace Gated

variable {K C R : Type} [Placed R] [Attended C R]

/-- Two gates that serve their readers, and differ only in the slots on which they are counted. -/
structure Alike (t : Terms) (Content : C → C → Prop) (g₁ g₂ : Gated K C) : Prop where
  selector : g₁.gate.selector = g₂.gate.selector
  current : g₁.gate.indicator.current = g₂.gate.indicator.current
  slowDrain : g₁.gate.slowDrain = g₂.gate.slowDrain
  strategy : g₁.strategy = g₂.strategy
  versions : g₁.versions = g₂.versions
  content : Content g₁.content g₂.content
  size₁ : g₁.gate.indicator.size = t.slots₁
  size₂ : g₂.gate.indicator.size = t.slots₂
  serves₁ : g₁.Serves
  serves₂ : g₂.Serves
  events : List.Forall₂ (Event.Alike t) g₁.events g₂.events

variable {t : Terms} {Content : C → C → Prop} {g₁ g₂ : Gated K C}

/-- In the end there is as much room in the second gate as in the first. -/
theorem roomy_of_versions (hroomy : g₁.Roomy) (hversions : g₁.versions = g₂.versions) :
    g₂.Roomy := by
  intro v
  rw [population, ← hversions]
  exact hroomy v

theorem Alike.population_eq (h : g₁.Alike t Content g₂) (v : Version) :
    g₁.population v = g₂.population v := by rw [population, h.versions, population]

/-- A scan for readers finds the same. -/
theorem Alike.isEmpty_eq (h : g₁.Alike t Content g₂) (v : Version) :
    g₁.gate.indicator.isEmpty v = g₂.gate.indicator.isEmpty v := by
  rw [Bool.eq_iff_iff, h.serves₁.isEmpty_iff, h.serves₂.isEmpty_iff, h.population_eq]

theorem Alike.viewOf_eq (h : g₁.Alike t Content g₂) : g₁.viewOf = g₂.viewOf := by
  simp only [viewOf, h.selector, h.current, h.population_eq]

theorem Alike.view_eq (h : g₁.Alike t Content g₂) :
    ∃ view, g₁.gate.view = .ok view ∧ g₂.gate.view = .ok view :=
  ⟨g₁.viewOf, h.serves₁.view_eq, h.viewOf_eq ▸ h.serves₂.view_eq⟩

/-- Events that are alike may be recorded. -/
theorem Alike.note (h : g₁.Alike t Content g₂) {noted₁ noted₂ : List (Event K)}
    (hnoted : List.Forall₂ (Event.Alike t) noted₁ noted₂) :
    Alike t Content { g₁ with events := g₁.events ++ noted₁ }
      { g₂ with events := g₂.events ++ noted₂ } :=
  { h with
    serves₁ := h.serves₁.congr rfl rfl
    serves₂ := h.serves₂.congr rfl rfl
    events := List.rel_append h.events hnoted }

theorem Alike.record (h : g₁.Alike t Content g₂) {e₁ e₂ : Event K} (he : e₁.Alike t e₂) :
    (g₁.record e₁).Alike t Content (g₂.record e₂) := h.note (.cons he .nil)

/-- The strategy may come into another state. -/
theorem Alike.withStrategy (h : g₁.Alike t Content g₂) (strategy : Strategy) :
    Alike t Content { g₁ with strategy } { g₂ with strategy } :=
  { h with
    strategy := rfl
    serves₁ := h.serves₁.congr rfl rfl
    serves₂ := h.serves₂.congr rfl rfl }

theorem Alike.restart (h : g₁.Alike t Content g₂) : g₁.restart.Alike t Content g₂.restart := by
  obtain ⟨view, hview₁, hview₂⟩ := h.view_eq
  unfold Gated.restart
  rw [hview₁, hview₂, ← h.strategy]
  exact (h.withStrategy _).record (.reset _ view)

theorem Alike.pause (h : g₁.Alike t Content g₂) {did₁ did₂ : List (Answer K)}
    (hdid : List.Forall₂ (Answer.Alike t) did₁ did₂) :
    (g₁.pause did₁).Alike t Content (g₂.pause did₂) := by
  obtain ⟨view, hview₁, hview₂⟩ := h.view_eq
  unfold Gated.pause
  rw [hview₁, hview₂, ← h.strategy]
  exact (h.withStrategy _).record (.waited hdid _ view)

theorem Alike.reportDrain (h : g₁.Alike t Content g₂) (v : Version) (polls : Nat) :
    (g₁.reportDrain v polls).Alike t Content (g₂.reportDrain v polls) := by
  unfold Gated.reportDrain Gate.isSlow
  rw [← h.slowDrain]
  split
  · exact h.record (.same trivial)
  · exact h

theorem Alike.publish (h : g₁.Alike t Content g₂) (side : Side) :
    (g₁.publish side).Alike t Content (g₂.publish side) :=
  { h with
    selector := rfl
    serves₁ := h.serves₁.congr rfl rfl
    serves₂ := h.serves₂.congr rfl rfl }

theorem Alike.switch (h : g₁.Alike t Content g₂) (v : Version) :
    (g₁.switch v).Alike t Content (g₂.switch v) :=
  { h with
    current := rfl
    serves₁ := ⟨h.serves₁.accounted.switch v, h.serves₁.roomy⟩
    serves₂ := ⟨h.serves₂.accounted.switch v, h.serves₂.roomy⟩ }

theorem Alike.secondWait (h : g₁.Alike t Content g₂) (v : Version) :
    (g₁.secondWait v).Alike t Content (g₂.secondWait v) := (h.switch v).restart

theorem Alike.firstWait (h : g₁.Alike t Content g₂) :
    g₁.firstWait.Alike t Content g₂.firstWait := by
  unfold Gated.firstWait
  rw [← h.current]
  refine (h.record (.same ?_)).restart
  exact trivial

/-- Where nobody is inside, no version is waited for. -/
theorem isEmpty_of_deserted {g : Gated K C} (h : g.Serves) (hinside : g.inside = [])
    (v : Version) : g.gate.indicator.isEmpty v = true := by
  rw [h.isEmpty_iff, population, versions_eq_map, hinside]
  rfl

end Gated

namespace Company

open Gated

variable {A K C R : Type} [Placed R] [Attended C R]

/-- Two companies that do the same at gates that are alike, as long as what is asked fits. -/
structure Matched (t : Terms) (Content : C → C → Prop) (Fits : A → Gated K C → Prop)
    (c₁ c₂ : Company A K C) : Prop where
  /-- Requests come to the same. -/
  perform : ∀ {request : A} {g₁ g₂ : Gated K C}, g₁.Alike t Content g₂ → Fits request g₁ →
    (c₁.perform request g₁).1.Alike t (c₂.perform request g₂).1 ∧
      (c₁.perform request g₁).2.Alike t Content (c₂.perform request g₂).2
  /-- The same are let go. -/
  release : ∀ {g₁ g₂ : Gated K C}, g₁.Alike t Content g₂ →
    (c₁.release g₁).1 = (c₂.release g₂).1 ∧
      (c₁.release g₁).2.Alike t Content (c₂.release g₂).2

/-- Whether a fault is that of a pause of a script which breaks off. -/
def RaisedIn (script : Script A) (fault : Fault) : Prop :=
  ∃ moves ∈ script, ∃ message, .raise message ∈ moves ∧ fault = .raised message

theorem RaisedIn.mono {script script' : Script A} (hsubset : script ⊆ script') {fault : Fault}
    (h : RaisedIn script fault) : RaisedIn script' fault := by
  obtain ⟨moves, hmoves, hraise⟩ := h
  exact ⟨moves, hsubset hmoves, hraise⟩

variable {t : Terms} {Content : C → C → Prop} {Fits : A → Gated K C → Prop}
  {c₁ c₂ : Company A K C} {g₁ g₂ : Gated K C}

/-- A pause of two companies that match. -/
theorem Matched.turn (hc : Matched t Content Fits c₁ c₂) (h : g₁.Alike t Content g₂)
    {moves : List (Move A)} (hfits : c₁.FitsMoves Fits moves g₁) {did₁ did₂ : List (Answer K)}
    (hdid : List.Forall₂ (Answer.Alike t) did₁ did₂) :
    ∃ outcome g₁' g₂', c₁.turn moves did₁ g₁ = (outcome, g₁') ∧
      c₂.turn moves did₂ g₂ = (outcome, g₂') ∧ g₁'.Alike t Content g₂' ∧
      ∀ fault, outcome = .error fault → RaisedIn [moves] fault := by
  induction moves generalizing g₁ g₂ did₁ did₂ with
  | nil => exact ⟨.ok (), _, _, rfl, rfl, h.pause hdid, nofun⟩
  | cons move moves ih =>
    cases move with
    | raise message =>
      obtain ⟨hreleased, hnext⟩ := hc.release h
      refine ⟨.error (.raised message), _, _, rfl, rfl, ?_, ?_⟩
      · rw [hreleased]
        exact hnext.record (.waitRaised hdid _)
      · rintro _ ⟨⟩
        exact ⟨_, List.mem_singleton.mpr rfl, message, List.mem_cons_self .., rfl⟩
    | ask request =>
      obtain ⟨hanswer, hnext⟩ := hc.perform h hfits.1
      obtain ⟨outcome, g₁', g₂', h₁, h₂, halike, hraised⟩ :=
        ih hnext hfits.2 (List.rel_append hdid (.cons hanswer .nil))
      refine ⟨outcome, g₁', g₂', h₁, h₂, halike, fun fault hfault => ?_⟩
      obtain ⟨_, hmem, message, hraise, rfl⟩ := hraised fault hfault
      cases List.mem_singleton.mp hmem
      exact ⟨_, List.mem_singleton.mpr rfl, message, List.mem_cons_of_mem _ hraise, rfl⟩

/-- Two pauses that may follow a script: as long as somebody is inside they come to the same, and
either they let everybody go or they break off for a reason of their own. -/
def Closing (t : Terms) (Content : C → C → Prop) (own : Fault → Prop) (last₁ last₂ : Poll K C) :
    Prop :=
  ∀ {g₁ g₂ : Gated K C}, g₁.Alike t Content g₂ → g₁.inside ≠ [] → ∃ outcome g₁' g₂',
    last₁ g₁ = (outcome, g₁') ∧ last₂ g₂ = (outcome, g₂') ∧ g₁'.Alike t Content g₂' ∧
      (outcome = .ok () → g₁'.inside = []) ∧ ∀ fault, outcome = .error fault → own fault

theorem closing_halt (t : Terms) (Content : C → C → Prop) (fault : Fault) :
    Closing (K := K) t Content (· = fault) (halt fault) (halt fault) :=
  fun h _ =>
    ⟨.error fault, _, _, rfl, rfl, h, nofun, fun _ hfault => (Except.error.inj hfault).symm⟩

/-- The last pauses of two companies that let nobody go are stuck. -/
theorem closing_of_nobody (t : Terms) (Content : C → C → Prop)
    (hnobody₁ : ∀ g, c₁.release g = ([], g)) (hnobody₂ : ∀ g, c₂.release g = ([], g)) :
    Closing t Content (· = .stuck) c₁.lastTurn c₂.lastTurn := by
  intro g₁ g₂ h _
  have hlast₁ : c₁.lastTurn g₁ = (.error .stuck, g₁.record .stuck) := by
    unfold Company.lastTurn
    rw [hnobody₁]
  have hlast₂ : c₂.lastTurn g₂ = (.error .stuck, g₂.record .stuck) := by
    unfold Company.lastTurn
    rw [hnobody₂]
  exact ⟨_, _, _, hlast₁, hlast₂, h.record (.same trivial), nofun,
    fun _ hfault => (Except.error.inj hfault).symm⟩

/-- The last pauses of two companies that match let everybody go, if somebody is let go whenever
somebody is inside, and nobody stays. -/
theorem Matched.closing (hc : Matched t Content Fits c₁ c₂)
    (hempties : ∀ {g₁ g₂ : Gated K C}, g₁.Alike t Content g₂ →
      (c₁.release g₁).2.inside = [] ∧ ((c₁.release g₁).1 = [] → g₁.inside = [])) :
    Closing t Content (fun _ => False) c₁.lastTurn c₂.lastTurn := by
  intro g₁ g₂ h hinside
  obtain ⟨hreleased, hnext⟩ := hc.release h
  obtain ⟨hdeserted, hall⟩ := hempties h
  have hnames : (c₁.release g₁).1 ≠ [] := fun hnone => hinside (hall hnone)
  rcases hrelease₁ : c₁.release g₁ with ⟨released, g₁'⟩
  rcases hrelease₂ : c₂.release g₂ with ⟨released', g₂'⟩
  rw [hrelease₁] at hreleased hnext hdeserted hnames
  rw [hrelease₂] at hreleased hnext
  obtain rfl : released = released' := hreleased
  refine ⟨.ok (), g₁'.pause [.forced released], g₂'.pause [.forced released], ?_, ?_, ?_,
    fun _ => hdeserted, nofun⟩
  · unfold Company.lastTurn
    rw [hrelease₁]
    cases released with
    | nil => exact absurd rfl hnames
    | cons => rfl
  · unfold Company.lastTurn
    rw [hrelease₂]
    cases released with
    | nil => exact absurd rfl hnames
    | cons => rfl
  · exact hnext.pause (.cons (.same nofun) .nil)

variable {own : Fault → Prop} {last₁ last₂ : Poll K C} {script : Script A}

/-- How two waits go that are alike. -/
inductive WaitsAlike (t : Terms) (Content : C → C → Prop) (own : Fault → Prop)
    (c₁ c₂ : Company A K C) (last₁ last₂ : Poll K C) (script : Script A) (v : Version) (count : Nat)
    (g₁ g₂ : Gated K C) : Prop
  /-- Both end after the same pauses of the script. -/
  | early (used : Nat) {g₁' g₂' : Gated K C}
    (first : ∀ more, g₁.awaitEmpty v (c₁.turns (script.take used) ++ more) count = (.ok more, g₁'))
    (second : ∀ more, g₂.awaitEmpty v (c₂.turns (script.take used) ++ more) count = (.ok more, g₂'))
    (alike : g₁'.Alike t Content g₂')
  /-- Both end after the last pause, when nobody is inside. -/
  | late {g₁' g₂' : Gated K C}
    (first : g₁.awaitEmpty v (c₁.turns script ++ [last₁]) count = (.ok [], g₁'))
    (second : g₂.awaitEmpty v (c₂.turns script ++ [last₂]) count = (.ok [], g₂'))
    (alike : g₁'.Alike t Content g₂') (deserted : g₁'.inside = [])
  /-- Both break off in the same pause. -/
  | broken {fault : Fault} {g₁' g₂' : Gated K C}
    (first : g₁.awaitEmpty v (c₁.turns script ++ [last₁]) count = (.error fault, g₁'))
    (second : g₂.awaitEmpty v (c₂.turns script ++ [last₂]) count = (.error fault, g₂'))
    (alike : g₁'.Alike t Content g₂') (reason : RaisedIn script fault ∨ own fault)

/-- Waits of two companies that match are alike. -/
theorem Matched.awaitEmpty (hc : Matched t Content Fits c₁ c₂)
    (hlast : Closing t Content own last₁ last₂) {v : Version} {count : Nat}
    (h : g₁.Alike t Content g₂)
    (hfits : c₁.FitsDuring Fits script fun polls => g₁.awaitEmpty v polls count) :
    WaitsAlike t Content own c₁ c₂ last₁ last₂ script v count g₁ g₂ := by
  induction script generalizing g₁ g₂ count with
  | nil =>
    by_cases hv : g₁.gate.indicator.isEmpty v = true
    · have hv' := h.isEmpty_eq v ▸ hv
      exact .early 0 (fun more => awaitEmpty_of_isEmpty hv) (fun more => awaitEmpty_of_isEmpty hv')
        (h.reportDrain v count)
    · have hv' := h.isEmpty_eq v ▸ hv
      have hinside : g₁.inside ≠ [] := fun hnone => hv (isEmpty_of_deserted h.serves₁ hnone v)
      obtain ⟨outcome, u₁, u₂, h₁, h₂, halike, hdeserted, hown⟩ := hlast h hinside
      cases outcome with
      | error fault =>
        exact .broken (awaitEmpty_cons_of_error hv h₁ []) (awaitEmpty_cons_of_error hv' h₂ [])
          halike (.inr (hown fault rfl))
      | ok _ =>
        have hdone₁ := isEmpty_of_deserted halike.serves₁ (hdeserted rfl) v
        have hdone₂ := halike.isEmpty_eq v ▸ hdone₁
        have hkept : (u₁.reportDrain v (count + 1)).inside = u₁.inside := by
          rw [Gated.inside, reportDrain_content, Gated.inside]
        exact .late ((awaitEmpty_cons_of_ok hv h₁ []).trans (awaitEmpty_of_isEmpty hdone₁))
          ((awaitEmpty_cons_of_ok hv' h₂ []).trans (awaitEmpty_of_isEmpty hdone₂))
          (halike.reportDrain v (count + 1)) (hkept.trans (hdeserted rfl))
  | cons moves script ih =>
    by_cases hv : g₁.gate.indicator.isEmpty v = true
    · have hv' := h.isEmpty_eq v ▸ hv
      exact .early 0 (fun more => awaitEmpty_of_isEmpty hv) (fun more => awaitEmpty_of_isEmpty hv')
        (h.reportDrain v count)
    · have hv' := h.isEmpty_eq v ▸ hv
      obtain ⟨outcome, u₁, u₂, h₁, h₂, halike, hraised⟩ := hc.turn h (hfits.head hv) .nil
      cases outcome with
      | error fault =>
        have hin : RaisedIn (moves :: script) fault :=
          (hraised fault rfl).mono (List.cons_subset_cons moves (List.nil_subset _))
        exact .broken (awaitEmpty_cons_of_error hv h₁ _) (awaitEmpty_cons_of_error hv' h₂ _)
          halike (.inl hin)
      | ok _ =>
        cases ih halike (hfits.tail hv h₁) with
        | early used first second alike =>
          exact .early (used + 1) (fun more => (awaitEmpty_cons_of_ok hv h₁ _).trans (first more))
            (fun more => (awaitEmpty_cons_of_ok hv' h₂ _).trans (second more)) alike
        | late first second alike deserted =>
          exact .late ((awaitEmpty_cons_of_ok hv h₁ _).trans first)
            ((awaitEmpty_cons_of_ok hv' h₂ _).trans second) alike deserted
        | broken first second alike reason =>
          exact .broken ((awaitEmpty_cons_of_ok hv h₁ _).trans first)
            ((awaitEmpty_cons_of_ok hv' h₂ _).trans second) alike
            (reason.imp_left (RaisedIn.mono (List.subset_cons_self ..)))

/-- Toggles of two companies that match come to the same, and break off only in a pause of which the
script or the last pause says so. -/
theorem Matched.toggle (hc : Matched t Content Fits c₁ c₂)
    (hlast : Closing t Content own last₁ last₂) (h : g₁.Alike t Content g₂)
    (hfits : c₁.FitsDuring Fits script fun polls => g₁.toggle polls) :
    ∃ outcome g₁' g₂', g₁.toggle (c₁.turns script ++ [last₁]) = (outcome, g₁') ∧
      g₂.toggle (c₂.turns script ++ [last₂]) = (outcome, g₂') ∧ g₁'.Alike t Content g₂' ∧
      ∀ fault, outcome = .error fault → RaisedIn script fault ∨ own fault := by
  have hcurrent := h.current
  cases hc.awaitEmpty hlast h.firstWait hfits.firstWait with
  | broken first second alike reason =>
    rw [hcurrent] at second
    refine ⟨_, _, _, (Toggled.first first).eq, (Toggled.first second).eq, alike, ?_⟩
    rintro _ ⟨⟩
    exact reason
  | @late u₁ u₂ first second alike deserted =>
    rw [hcurrent] at second
    -- Nobody is left for whom the second wait could pause.
    have hsecond := alike.secondWait g₁.gate.indicator.current.other
    have hdone₁ := isEmpty_of_deserted hsecond.serves₁ deserted g₁.gate.indicator.current
    have hdone₂ := hsecond.isEmpty_eq g₁.gate.indicator.current ▸ hdone₁
    refine ⟨.ok (), _, _, (Toggled.both first (awaitEmpty_of_isEmpty hdone₁)).eq, ?_,
      hsecond.reportDrain _ 0, nofun⟩
    rw [hcurrent] at hdone₂ ⊢
    exact (Toggled.both second (awaitEmpty_of_isEmpty hdone₂)).eq
  | @early used u₁ u₂ first second alike =>
    have hsecond := alike.secondWait g₁.gate.indicator.current.other
    have hfirst₁ := first (c₁.turns (script.drop used) ++ [last₁])
    have hfirst₂ := second (c₂.turns (script.drop used) ++ [last₂])
    rw [← List.append_assoc, ← turns_split] at hfirst₁ hfirst₂
    rw [hcurrent] at hfirst₂
    have hrest {fault : Fault} (reason : RaisedIn (script.drop used) fault ∨ own fault) :
        RaisedIn script fault ∨ own fault :=
      reason.imp_left (RaisedIn.mono (List.drop_subset ..))
    cases hc.awaitEmpty hlast hsecond (hfits.secondWait first) with
    | broken first' second' alike' reason =>
      rw [hcurrent] at second'
      refine ⟨_, _, _, (Toggled.second hfirst₁ first').eq, (Toggled.second hfirst₂ second').eq,
        alike', ?_⟩
      rintro _ ⟨⟩
      exact hrest reason
    | late first' second' alike' =>
      rw [hcurrent] at second'
      exact ⟨.ok (), _, _, (Toggled.both hfirst₁ first').eq, (Toggled.both hfirst₂ second').eq,
        alike', nofun⟩
    | early used' first' second' alike' =>
      have hdone₁ := first' (c₁.turns ((script.drop used).drop used') ++ [last₁])
      have hdone₂ := second' (c₂.turns ((script.drop used).drop used') ++ [last₂])
      rw [← List.append_assoc, ← turns_split] at hdone₁ hdone₂
      rw [hcurrent] at hdone₂
      exact ⟨.ok (), _, _, (Toggled.both hfirst₁ hdone₁).eq, (Toggled.both hfirst₂ hdone₂).eq,
        alike', nofun⟩

end Company

section Sessions

variable {σ T K : Type} {t : Terms} {s₁ s₂ : σ}

/-- Whether each step of a session fits when it is taken. -/
def FitsThroughout (perform : T → σ → Answer K × σ) (takeEvents : σ → List (Event K) × σ)
    (Fits : T → σ → Prop) (steps : List T) (s : σ) : Prop :=
  ∀ i step, steps[i]? = some step → Fits step (transcript perform takeEvents (steps.take i) s).2

/-- Transcripts of as many steps, with answers and events that are alike step by step. -/
def TranscriptsAlike (t : Terms) (first second : List (Answer K × List (Event K))) : Prop :=
  List.Forall₂ (fun told₁ told₂ =>
    told₁.1.Alike t told₂.1 ∧ List.Forall₂ (Event.Alike t) told₁.2 told₂.2) first second

theorem FitsThroughout.take {perform : T → σ → Answer K × σ} {takeEvents : σ → List (Event K) × σ}
    {Fits : T → σ → Prop} {steps : List T} {s : σ}
    (h : FitsThroughout perform takeEvents Fits steps s) (k : Nat) :
    FitsThroughout perform takeEvents Fits (steps.take k) s := by
  intro i step hstep
  rw [List.getElem?_take] at hstep
  split at hstep
  · rename_i hlt
    rw [List.take_take, Nat.min_eq_left hlt.le]
    exact h i step hstep
  · cases hstep

/-- Sessions of the same steps are alike, if each step is. -/
theorem transcripts_alike (perform₁ perform₂ : T → σ → Answer K × σ)
    (takeEvents : σ → List (Event K) × σ) (Fits : T → σ → Prop) (Rel : σ → σ → Prop)
    (hstep : ∀ {step : T} {s₁ s₂ : σ}, Rel s₁ s₂ → Fits step s₁ →
      (perform₁ step s₁).1.Alike t (perform₂ step s₂).1 ∧
      List.Forall₂ (Event.Alike t) (takeEvents (perform₁ step s₁).2).1
        (takeEvents (perform₂ step s₂).2).1 ∧
      Rel (takeEvents (perform₁ step s₁).2).2 (takeEvents (perform₂ step s₂).2).2)
    {steps : List T} (h : Rel s₁ s₂)
    (hfits : FitsThroughout perform₁ takeEvents Fits steps s₁) :
    TranscriptsAlike t (transcript perform₁ takeEvents steps s₁).1
        (transcript perform₂ takeEvents steps s₂).1 ∧
      Rel (transcript perform₁ takeEvents steps s₁).2
        (transcript perform₂ takeEvents steps s₂).2 := by
  induction steps generalizing s₁ s₂ with
  | nil => exact ⟨.nil, h⟩
  | cons step steps ih =>
    obtain ⟨hanswer, hevents, hnext⟩ := hstep h (hfits 0 step rfl)
    have hrest : FitsThroughout perform₁ takeEvents Fits steps
        (takeEvents (perform₁ step s₁).2).2 := fun i step' hstep' => hfits (i + 1) step' hstep'
    obtain ⟨htold, hend⟩ := ih hnext hrest
    exact ⟨.cons ⟨hanswer, hevents⟩ htold, hend⟩

end Sessions

end LeftRight
